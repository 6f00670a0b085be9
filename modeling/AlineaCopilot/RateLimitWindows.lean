import Mathlib.Data.Multiset.Filter
import Mathlib.Data.Multiset.AddSub
import AlineaCopilot.RateLimiter
open AlineaCopilot.KeyedMaps AlineaCopilot.TransitionRuns

namespace AlineaCopilot.RateLimiter

section Statements
variable (limits : Limits) (middleware : Middleware)

-- Every window of the key that has been started is over at the time that was
-- read, but for the one the entry still holds.
def Timely (w : World) (key : String) (now : Nat) : Prop :=
  ∀ begun, (key,begun) ∈ w.started → begun + limits.window ≤ now ∨
    ∃ entry, w.entries.lookup key = some entry ∧ entry.resetTimeMs = begun + limits.window

-- A failing request is let through only while the failures recorded and the ones
-- still under way leave room for it.
def Within (w : World) : Event → Prop
  | .enter key fails now =>
    match middleware with
    | .counting => Timely limits w key now
    | .failuresOnly => fails = true → check limits w.entries key now = true →
        Timely limits w key now ∧ recorded w.entries key now + (w.pending key).length < limits.maxRequests
  | .record key _ now => Timely limits w key now
  | _ => True

end Statements

section Views
variable {limits : Limits}

-- What concerns one key.
structure View where
  entry : Option RateLimitEntry
  pending : Multiset Nat
  passed : List Nat
  counted : List Nat
  started : List Nat

def view (w : World) (key : String) : View :=
  ⟨w.entries.lookup key,w.pending key,timesOf w.passed key,timesOf w.counted key,timesOf w.started key⟩

def View.attempts (v : View) : Multiset Nat := (v.passed : Multiset Nat) + v.pending

def View.timely (limits : Limits) (v : View) (now : Nat) : Prop :=
  ∀ begun ∈ v.started, begun + limits.window ≤ now ∨ ∃ entry, v.entry = some entry ∧ entry.resetTimeMs = begun + limits.window

def inside (limits : Limits) (begun : Nat) (times : Multiset Nat) : Nat :=
  times.countP fun time => begun ≤ time ∧ time < begun + limits.window

-- The pending attempts that were let through before the window is over: the ones
-- that can still be counted in it.
def due (pending : Multiset Nat) (reset : Nat) : Nat := pending.countP (· < reset)

structure Bounded (limits : Limits) (v : View) : Prop where
  load : v.pending.card ≤ limits.maxRequests
  entry : ∀ entry, v.entry = some entry → ∃ begun ∈ v.started, entry.resetTimeMs = begun + limits.window ∧
    entry.count + due v.pending entry.resetTimeMs ≤ limits.maxRequests ∧
    inside limits begun v.attempts ≤ entry.count + due v.pending entry.resetTimeMs ∧
    inside limits begun v.counted ≤ entry.count
  windows : ∀ begun ∈ v.started, inside limits begun v.attempts ≤ limits.maxRequests ∧ inside limits begun v.counted ≤ limits.maxRequests
  covered : ∀ time, time ∈ v.passed ∨ time ∈ v.counted → ∃ begun ∈ v.started, time < begun + limits.window ∨ limits.window = 0

theorem due_le (pending : Multiset Nat) (reset : Nat) : due pending reset ≤ pending.card := Multiset.countP_le_card _ _

theorem inside_add (begun : Nat) (left right : Multiset Nat) :
    inside limits begun (left + right) = inside limits begun left + inside limits begun right := Multiset.countP_add _ _ _

theorem inside_cons (begun time : Nat) (times : Multiset Nat) :
    inside limits begun (time ::ₘ times) =
      inside limits begun times + if begun ≤ time ∧ time < begun + limits.window then 1 else 0 :=
  Multiset.countP_cons _ _ _

theorem due_cons (time reset : Nat) (pending : Multiset Nat) :
    due (time ::ₘ pending) reset = due pending reset + if time < reset then 1 else 0 := Multiset.countP_cons _ _ _

theorem inside_zero {begun : Nat} {times : Multiset Nat} (out : ∀ time ∈ times, time < begun ∨ limits.window = 0) :
    inside limits begun times = 0 := by
  rw [inside,Multiset.countP_eq_zero]
  intro time member ⟨after,before⟩
  rcases out time member with early | none_
  · omega
  · omega

-- What lies in a window was let through before the window was over.
theorem inside_due (begun : Nat) (pending : Multiset Nat) :
    inside limits begun pending ≤ due pending (begun + limits.window) := by
  rw [inside,due,Multiset.countP_eq_card_filter,Multiset.countP_eq_card_filter]
  exact Multiset.card_le_card (Multiset.monotone_filter_right _ fun _ held => held.2)

-- An attempt that is let through, while there is room for it in the window.
theorem Bounded.joins {v : View} (bounded : Bounded limits v) {now : Nat} (timely : v.timely limits now)
    (room : ∀ entry, v.entry = some entry → now < entry.resetTimeMs → entry.count + v.pending.card < limits.maxRequests)
    (load : v.pending.card < limits.maxRequests) : Bounded limits { v with pending := now ::ₘ v.pending } := by
  have attempts : ∀ begun, inside limits begun { v with pending := now ::ₘ v.pending }.attempts =
      inside limits begun v.attempts + if begun ≤ now ∧ now < begun + limits.window then 1 else 0 := by
    intro begun
    rw [← inside_cons,View.attempts,View.attempts,Multiset.add_cons]
  have held : ∀ entry, v.entry = some entry → ∃ begun ∈ v.started, entry.resetTimeMs = begun + limits.window ∧
      entry.count + due (now ::ₘ v.pending) entry.resetTimeMs ≤ limits.maxRequests ∧
      inside limits begun { v with pending := now ::ₘ v.pending }.attempts ≤ entry.count + due (now ::ₘ v.pending) entry.resetTimeMs ∧
      inside limits begun v.counted ≤ entry.count := by
    intro entry present
    obtain ⟨begun,member,reset,most,through,counts⟩ := bounded.entry entry present
    refine ⟨begun,member,reset,?_,?_,counts⟩
    · rw [due_cons]
      split
      · rename_i live
        have below := room entry present live
        have fewer := due_le v.pending entry.resetTimeMs
        omega
      · exact most
    · rw [attempts,due_cons,reset] at *
      split
      · rename_i current
        rw [if_pos current.2]
        omega
      · omega
  refine ⟨?_,held,?_,bounded.covered⟩
  · rw [Multiset.card_cons]
    exact load
  · intro begun member
    obtain ⟨through,counts⟩ := bounded.windows begun member
    refine ⟨?_,counts⟩
    rw [attempts]
    split
    · rename_i current
      rcases timely begun member with over_ | ⟨entry,present,reset⟩
      · omega
      · obtain ⟨other,_,same,most,most_,_⟩ := held entry present
        have equal : other = begun := by omega
        subst equal
        rw [attempts,if_pos current] at most_
        omega
    · exact through

def View.fresh (v : View) (now : Nat) : Bool :=
  match v.entry with
  | some entry => entry.resetTimeMs ≤ now
  | none => true

-- The entry the counting operations work on, with the window it may start.
def View.refreshed (limits : Limits) (v : View) (now : Nat) : View :=
  if v.fresh now then { v with entry := some ⟨0,now + limits.window⟩, started := now :: v.started } else v

theorem View.timely.ended {v : View} {now : Nat} (timely : v.timely limits now) (fresh : v.fresh now = true) :
    ∀ begun ∈ v.started, begun + limits.window ≤ now := by
  intro begun member
  rcases timely begun member with ended | ⟨entry,present,reset⟩
  · exact ended
  · have ended : entry.resetTimeMs ≤ now := by simpa [View.fresh,present] using fresh
    omega

theorem Bounded.refreshes {v : View} (bounded : Bounded limits v) {now : Nat} (timely : v.timely limits now) :
    Bounded limits (v.refreshed limits now) := by
  unfold View.refreshed
  split
  · rename_i fresh
    have ended := timely.ended fresh
    have early : ∀ time, time ∈ v.passed ∨ time ∈ v.counted → time < now ∨ limits.window = 0 := by
      intro time member
      obtain ⟨begun,known,covers⟩ := bounded.covered time member
      have over_ := ended begun known
      omega
    have through : inside limits now v.attempts ≤ due v.pending (now + limits.window) := by
      rw [View.attempts,inside_add,inside_zero fun time member => early time (.inl (Multiset.mem_coe.mp member)),Nat.zero_add]
      exact inside_due now v.pending
    have counts : inside limits now v.counted = 0 := inside_zero fun time member => early time (.inr (Multiset.mem_coe.mp member))
    have most := (due_le v.pending (now + limits.window)).trans bounded.load
    refine ⟨bounded.load,?_,?_,?_⟩
    · intro entry present
      cases present
      refine ⟨now,List.mem_cons_self,rfl,?_,?_,?_⟩
      · simpa using most
      · rw [Nat.zero_add]
        exact through
      · exact counts.le
    · intro begun member
      rcases List.mem_cons.mp member with rfl | earlier
      · exact ⟨through.trans most,counts.le.trans (Nat.zero_le _)⟩
      · exact bounded.windows begun earlier
    · intro time member
      obtain ⟨begun,known,covers⟩ := bounded.covered time member
      exact ⟨begun,List.mem_cons_of_mem _ known,covers⟩
  · exact bounded

theorem refreshed_timely {v : View} {now : Nat} (timely : v.timely limits now) : (v.refreshed limits now).timely limits now := by
  unfold View.refreshed
  split
  · rename_i fresh
    intro begun member
    rcases List.mem_cons.mp member with rfl | earlier
    · exact .inr ⟨_,rfl,rfl⟩
    · exact .inl (timely.ended fresh begun earlier)
  · exact timely

theorem refreshed_live (limits : Limits) (v : View) (now : Nat) : ∃ entry, (v.refreshed limits now).entry = some entry ∧
    (now < entry.resetTimeMs ∨ limits.window = 0 ∧ entry.count = 0) := by
  unfold View.refreshed
  split
  · refine ⟨_,rfl,?_⟩
    by_cases none_ : limits.window = 0
    · exact .inr ⟨none_,rfl⟩
    · exact .inl (Nat.lt_add_of_pos_right (Nat.pos_of_ne_zero none_))
  · rename_i stays
    cases present : v.entry with
    | none => simp [View.fresh,present] at stays
    | some entry => exact ⟨entry,rfl,.inl (by simpa [View.fresh,present] using stays)⟩

-- An attempt is counted: it is charged to the window the entry holds, which is the
-- only one that is not over.
theorem Bounded.charges {v : View} (bounded : Bounded limits v) {entry : RateLimitEntry} (present : v.entry = some entry)
    {passed now : Nat} {rest : Multiset Nat} (timely : v.timely limits now)
    (live : now < entry.resetTimeMs ∨ limits.window = 0) (earlier : passed ≤ now) (load : rest.card ≤ limits.maxRequests)
    (room : entry.count + 1 + due rest entry.resetTimeMs ≤ limits.maxRequests)
    (other : ∀ begun, begun + limits.window ≤ now → inside limits begun (passed ::ₘ (v.passed + rest)) ≤ inside limits begun v.attempts)
    (current : ∀ begun, inside limits begun (passed ::ₘ (v.passed + rest)) + due v.pending entry.resetTimeMs ≤
      inside limits begun v.attempts + 1 + due rest entry.resetTimeMs) :
    Bounded limits ⟨some (increment entry),rest,passed :: v.passed,now :: v.counted,v.started⟩ := by
  obtain ⟨begun,member,reset,_,through,counts⟩ := bounded.entry entry present
  have attempts : (⟨some (increment entry),rest,passed :: v.passed,now :: v.counted,v.started⟩ : View).attempts =
      passed ::ₘ (v.passed + rest) := by
    rw [View.attempts,← Multiset.cons_coe,Multiset.cons_add]
  have through' : inside limits begun (passed ::ₘ (v.passed + rest)) ≤ entry.count + 1 + due rest entry.resetTimeMs := by
    have step := current begun
    omega
  have counted : ∀ begun, inside limits begun (now :: v.counted : List Nat) =
      inside limits begun v.counted + if begun ≤ now ∧ now < begun + limits.window then 1 else 0 := by
    intro begun
    rw [← Multiset.cons_coe,inside_cons]
  have counts' : inside limits begun (now :: v.counted : List Nat) ≤ entry.count + 1 := by
    rw [counted]
    split <;> omega
  refine ⟨load,?_,?_,?_⟩
  · intro held same
    cases same
    exact ⟨begun,member,reset,room,attempts ▸ through',counts'⟩
  · intro other_ known
    rw [attempts]
    obtain ⟨before,countsBefore⟩ := bounded.windows other_ known
    rcases timely other_ known with ended | ⟨held,present',reset'⟩
    · refine ⟨(other other_ ended).trans before,?_⟩
      rw [counted,if_neg (by omega)]
      exact countsBefore
    · have equal : other_ = begun := by
        cases present.symm.trans present'
        omega
      subst equal
      exact ⟨through'.trans room,counts'.trans (by omega)⟩
  · intro time known
    have fits : passed < begun + limits.window ∨ limits.window = 0 := by omega
    have fitsNow : now < begun + limits.window ∨ limits.window = 0 := by omega
    rcases known with known | known
    · rcases List.mem_cons.mp known with rfl | before
      · exact ⟨begun,member,fits⟩
      · exact bounded.covered time (.inl before)
    · rcases List.mem_cons.mp known with rfl | before
      · exact ⟨begun,member,fitsNow⟩
      · exact bounded.covered time (.inr before)

theorem Bounded.counts {v : View} (bounded : Bounded limits v) (none_ : v.pending = 0) {entry : RateLimitEntry}
    (present : v.entry = some entry) {now : Nat} (timely : v.timely limits now)
    (live : now < entry.resetTimeMs ∨ limits.window = 0) (room : entry.count < limits.maxRequests) :
    Bounded limits ⟨some (increment entry),0,now :: v.passed,now :: v.counted,v.started⟩ := by
  have attempts : v.attempts = v.passed := by rw [View.attempts,none_,Multiset.add_zero]
  refine bounded.charges present timely live (Nat.le_refl _) (Nat.zero_le _) ?_ ?_ ?_
  · simp only [due,Multiset.countP_zero]
    exact room
  · intro begun ended
    rw [attempts,Multiset.add_zero,inside_cons,if_neg (by omega)]
    exact Nat.le_refl _
  · intro begun
    rw [attempts,Multiset.add_zero,inside_cons,none_]
    split <;> omega

theorem Bounded.records {v : View} (bounded : Bounded limits v) {entry : RateLimitEntry} (present : v.entry = some entry)
    {checked now : Nat} {rest : Multiset Nat} (pending : v.pending = checked ::ₘ rest) (timely : v.timely limits now)
    (live : now < entry.resetTimeMs ∨ limits.window = 0 ∧ entry.count = 0) (earlier : checked ≤ now) :
    Bounded limits ⟨some (increment entry),rest,checked :: v.passed,now :: v.counted,v.started⟩ := by
  have attempts : checked ::ₘ (v.passed + rest) = v.attempts := by rw [View.attempts,pending,Multiset.add_cons]
  have load := bounded.load
  rw [pending,Multiset.card_cons] at load
  have room : entry.count + 1 + due rest entry.resetTimeMs ≤ limits.maxRequests := by
    obtain ⟨_,_,_,most,_,_⟩ := bounded.entry entry present
    rw [pending,due_cons] at most
    split at most
    · omega
    · have fewer := due_le rest entry.resetTimeMs
      omega
  refine bounded.charges present timely (live.imp id And.left) earlier (by omega) room ?_ ?_
  · intro begun _
    rw [attempts]
  · intro begun
    rw [attempts,pending,due_cons]
    split <;> omega

theorem Bounded.loses {v : View} (bounded : Bounded limits v) : Bounded limits { v with entry := none } :=
  ⟨bounded.load,nofun,bounded.windows,bounded.covered⟩

end Views

end AlineaCopilot.RateLimiter

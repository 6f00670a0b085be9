import AlineaCopilot.RateLimitWindows
open AlineaCopilot.KeyedMaps AlineaCopilot.TransitionRuns

namespace AlineaCopilot.RateLimiter

section Requests
variable {limits : Limits} {middleware : Middleware}

def share (key : String) (r : Request) : Multiset Nat := (r.letThrough key).elim 0 ({·})

theorem pending_add (w : World) (r : Request) (key : String) :
    ((w.add r).pending key : Multiset Nat) = share key r + w.pending key := by
  simp only [World.pending,World.add,share,List.filterMap_cons]
  cases r.letThrough key <;> simp

theorem pending_take {w : World} {r : Request} (waits : r ∈ w.requests) (key : String) :
    (w.pending key : Multiset Nat) = share key r + (w.take r).pending key := by
  rw [← pending_add]
  exact Multiset.coe_eq_coe.mpr ((List.perm_cons_erase waits).filterMap _)

theorem view_add (w : World) (r : Request) (key : String) :
    view (w.add r) key = { view w key with pending := share key r + (view w key).pending } := by
  simp only [view,pending_add]
  rfl

theorem view_take {w : World} {r : Request} (waits : r ∈ w.requests) (key : String) :
    view w key = { view (w.take r) key with pending := share key r + (view (w.take r) key).pending } := by
  simp only [view,pending_take waits]
  rfl

theorem view_quiet {w : World} {r : Request} {key : String} (waits : r ∈ w.requests) (quiet : share key r = 0) :
    view (w.take r) key = view w key := by
  rw [view_take waits,quiet,Multiset.zero_add]

theorem share_entering (key : String) {r : Request} {now : Nat} (entering : r.phase = .entering now) : share key r = 0 := by
  rw [share,Request.letThrough,entering]
  split <;> rfl

theorem share_other {key : String} {r : Request} (other : r.key ≠ key) : share key r = 0 := by
  rw [share,Request.letThrough,if_neg fun both => other both.1]
  rfl

theorem share_succeeds {key : String} {r : Request} (succeeds : r.fails = false) : share key r = 0 := by
  rw [share,Request.letThrough,if_neg (by simp [succeeds])]
  rfl

theorem timely_view {w : World} {key : String} {now : Nat} (timely : Timely limits w key now) : (view w key).timely limits now := by
  intro begun member
  refine timely begun ?_
  obtain ⟨⟨owner,time⟩,logged,same⟩ := List.mem_filterMap.mp member
  split at same
  · rename_i owns
    cases same
    cases owns
    exact logged
  · cases same

theorem entryAt_view (w : World) (key : String) (now : Nat) :
    ((view w key).refreshed limits now).entry = some (entryAt limits w.entries key now) := by
  have held : w.entries.lookup key = (view w key).entry := rfl
  unfold View.refreshed View.fresh entryAt
  rw [held]
  generalize view w key = v
  obtain ⟨held,pending,passed,counted,started⟩ := v
  cases held with
  | none => rfl
  | some entry =>
    by_cases ended : entry.resetTimeMs ≤ now
    · simp [ended]
    · simp [ended]

@[simp] theorem timesOf_cons (log : List (String × Nat)) (key owner : String) (time : Nat) :
    timesOf ((owner,time) :: log) key = if owner = key then time :: timesOf log key else timesOf log key := by
  simp only [timesOf,List.filterMap_cons]
  split <;> simp_all

@[simp] theorem startWindow_requests (w : World) (key : String) (now : Nat) : (w.startWindow key now).requests = w.requests := by
  unfold World.startWindow
  split <;> rfl

@[simp] theorem startWindow_passed (w : World) (key : String) (now : Nat) : (w.startWindow key now).passed = w.passed := by
  unfold World.startWindow
  split <;> rfl

@[simp] theorem startWindow_counted (w : World) (key : String) (now : Nat) : (w.startWindow key now).counted = w.counted := by
  unfold World.startWindow
  split <;> rfl

@[simp] theorem startWindow_clock (w : World) (key : String) (now : Nat) : (w.startWindow key now).clock = w.clock := by
  unfold World.startWindow
  split <;> rfl

theorem startWindow_started (limits : Limits) (w : World) (key : String) (now : Nat) (other : String) :
    timesOf (w.startWindow key now).started other =
      if other = key then ((view w key).refreshed limits now).started else timesOf w.started other := by
  have fresh : fresh w.entries key now = (view w key).fresh now := rfl
  unfold World.startWindow View.refreshed
  rw [fresh]
  by_cases same : other = key
  · subst same
    rw [if_pos rfl]
    split
    · simp only [timesOf_cons,if_true]
      rfl
    · rfl
  · rw [if_neg same]
    split
    · rw [timesOf_cons,if_neg (Ne.symm same)]
    · rfl

theorem refreshed_rest (limits : Limits) (v : View) (now : Nat) :
    (v.refreshed limits now).pending = v.pending ∧ (v.refreshed limits now).passed = v.passed ∧
      (v.refreshed limits now).counted = v.counted := by
  unfold View.refreshed
  split <;> exact ⟨rfl,rfl,rfl⟩

theorem refreshed_started (v : View) (now : Nat) (pending : Multiset Nat) :
    ({ v with pending := pending }.refreshed limits now).started = (v.refreshed limits now).started := by
  have fresh : { v with pending := pending }.fresh now = v.fresh now := rfl
  unfold View.refreshed
  rw [fresh]
  split <;> rfl

theorem refreshed_entry (v : View) (now : Nat) (entry : RateLimitEntry) :
    { v.refreshed limits now with entry := some entry } =
      ⟨some entry,v.pending,v.passed,v.counted,(v.refreshed limits now).started⟩ := by
  unfold View.refreshed
  split <;> rfl

-- What is counted under one key leaves the other keys as they were.
theorem refreshed_view (limits : Limits) (w : World) (key : String) (now : Nat) (entry : RateLimitEntry) (other : String) :
    view { w.startWindow key now with entries := w.entries.insert key entry } other =
      if other = key then { (view w key).refreshed limits now with entry := some entry } else view w other := by
  by_cases same : other = key
  · subst same
    rw [if_pos rfl,refreshed_entry]
    simp only [view,World.pending,startWindow_requests,startWindow_passed,startWindow_counted,
      startWindow_started limits,lookup_insert_eq,if_true]
  · rw [if_neg same]
    simp only [view,World.pending,startWindow_requests,startWindow_passed,startWindow_counted,
      startWindow_started limits,lookup_insert_eq,if_neg same]

theorem charged_view (limits : Limits) (w : World) (key : String) (passed now : Nat) (entry : RateLimitEntry) (other : String) :
    view { w.startWindow key now with
      entries := w.entries.insert key entry
      passed := (key,passed) :: w.passed
      counted := (key,now) :: w.counted } other =
      if other = key then ⟨some entry,(view w key).pending,passed :: (view w key).passed,now :: (view w key).counted,
        ((view w key).refreshed limits now).started⟩
      else view w other := by
  by_cases same : other = key
  · subst same
    rw [if_pos rfl]
    simp only [view,World.pending,startWindow_requests,startWindow_started limits,lookup_insert_eq,timesOf_cons,if_true]
  · rw [if_neg same]
    simp only [view,World.pending,startWindow_requests,startWindow_started limits,lookup_insert_eq,timesOf_cons,if_neg same,
      if_neg (Ne.symm same)]

def Ordered (w : World) : Prop := ∀ r ∈ w.requests, match r.phase with
  | .entering now => now ≤ w.clock
  | .handling checked => checked ≤ w.clock
  | .leaving checked now => checked ≤ now

theorem Ordered.later {w : World} (ordered : Ordered w) {now : Nat} (later : w.clock ≤ now) : Ordered { w with clock := now } := by
  intro r waits
  have before := ordered r waits
  cases phase : r.phase with
  | entering read => rw [phase] at before; exact before.trans later
  | handling checked => rw [phase] at before; exact before.trans later
  | leaving checked read => rw [phase] at before; exact before

theorem Ordered.fewer {w after : World} (ordered : Ordered w) (fewer : after.requests ⊆ w.requests) (clock : after.clock = w.clock) :
    Ordered after := by
  intro r waits
  have before := ordered r (fewer waits)
  rw [← clock] at before
  exact before

theorem Ordered.add {w : World} (ordered : Ordered w) {r : Request} (fits : Ordered { w with requests := [r] }) : Ordered (w.add r) := by
  intro other waits
  rcases List.mem_cons.mp waits with rfl | before
  · exact fits other List.mem_cons_self
  · exact ordered other before

theorem Ordered.take {w : World} (ordered : Ordered w) (r : Request) : Ordered (w.take r) :=
  ordered.fewer (fun _ waits => List.mem_of_mem_erase waits) rfl

theorem enter_requests {w after : World} (entered : step limits .counting w (.enter key fails now) = some after) :
    after.requests = w.requests.erase ⟨key,fails,.entering now⟩ ∧ after.clock = w.clock := by
  unfold step at entered
  simp only [Option.ite_none_right_eq_some,Option.some.injEq] at entered
  obtain ⟨waits,rfl⟩ := entered
  split
  · exact ⟨startWindow_requests _ _ _,startWindow_clock _ _ _⟩
  · exact ⟨startWindow_requests _ _ _,startWindow_clock _ _ _⟩

theorem Ordered.keeps {w after : World} {event : Event} (ordered : Ordered w) (stepped : step limits middleware w event = some after) :
    Ordered after := by
  cases event with
  | tick now =>
    unfold step at stepped
    simp only [Option.ite_none_right_eq_some,Option.some.injEq] at stepped
    obtain ⟨later,rfl⟩ := stepped
    exact ordered.later later
  | arrive key fails =>
    cases stepped
    refine ordered.add fun r waits => ?_
    cases List.mem_singleton.mp waits
    exact Nat.le_refl _
  | enter key fails now =>
    cases middleware with
    | counting =>
      obtain ⟨requests,clock⟩ := enter_requests stepped
      refine ordered.fewer ?_ clock
      rw [requests]
      exact fun _ waits => List.mem_of_mem_erase waits
    | failuresOnly =>
      unfold step at stepped
      simp only [Option.ite_none_right_eq_some,Option.some.injEq] at stepped
      obtain ⟨waits,rfl⟩ := stepped
      have early : now ≤ w.clock := ordered _ waits
      split
      · refine (ordered.take _).add fun r inside => ?_
        cases List.mem_singleton.mp inside
        exact early
      · exact ordered.take _
  | respond key fails checked =>
    unfold step at stepped
    simp only [Option.ite_none_right_eq_some,Option.some.injEq] at stepped
    obtain ⟨waits,rfl⟩ := stepped
    have early : checked ≤ w.clock := ordered _ waits
    split
    · refine (ordered.take _).add fun r inside => ?_
      cases List.mem_singleton.mp inside
      exact early
    · exact ordered.take _
  | record key checked now =>
    unfold step at stepped
    simp only [Option.ite_none_right_eq_some,Option.some.injEq] at stepped
    obtain ⟨waits,rfl⟩ := stepped
    refine (ordered.take ⟨key,true,.leaving checked now⟩).fewer ?_ (startWindow_clock _ _ _)
    exact fun _ inside => by simpa using inside
  | cleanup key now =>
    unfold step at stepped
    simp only [Option.ite_none_right_eq_some,Option.some.injEq] at stepped
    obtain ⟨_,rfl⟩ := stepped
    exact ordered

-- The middleware that counts every request has none of them under way.
def Counting (w : World) : Prop := ∀ r ∈ w.requests, ∃ now, r.phase = .entering now

theorem Counting.keeps {w after : World} {event : Event} (counting : Counting w)
    (stepped : step limits .counting w event = some after) : Counting after := by
  cases event with
  | tick now =>
    unfold step at stepped
    simp only [Option.ite_none_right_eq_some,Option.some.injEq] at stepped
    obtain ⟨later,rfl⟩ := stepped
    exact counting
  | arrive key fails =>
    cases stepped
    intro r waits
    rcases List.mem_cons.mp waits with rfl | before
    · exact ⟨_,rfl⟩
    · exact counting r before
  | enter key fails now =>
    intro r inside
    rw [(enter_requests stepped).1] at inside
    exact counting r (List.mem_of_mem_erase inside)
  | respond key fails checked =>
    unfold step at stepped
    simp only [Option.ite_none_right_eq_some] at stepped
    obtain ⟨now,entering⟩ := counting _ stepped.1
    cases entering
  | record key checked now =>
    unfold step at stepped
    simp only [Option.ite_none_right_eq_some] at stepped
    obtain ⟨read,entering⟩ := counting _ stepped.1
    cases entering
  | cleanup key now =>
    unfold step at stepped
    simp only [Option.ite_none_right_eq_some,Option.some.injEq] at stepped
    obtain ⟨_,rfl⟩ := stepped
    exact counting

theorem Counting.pending {w : World} (counting : Counting w) (key : String) : (view w key).pending = 0 := by
  have empty : w.pending key = [] := by
    refine List.filterMap_eq_nil_iff.mpr fun r waits => ?_
    obtain ⟨now,entering⟩ := counting r waits
    rw [Request.letThrough,entering]
    split <;> rfl
  show (w.pending key : Multiset Nat) = 0
  rw [empty]
  rfl

theorem enter_counts {w after : World} (bounded : ∀ key, Bounded limits (view w key)) (counting : Counting w)
    (timely : Timely limits w key now) (entered : step limits .counting w (.enter key fails now) = some after) (other : String) :
    Bounded limits (view after other) := by
  unfold step at entered
  simp only [Option.ite_none_right_eq_some,Option.some.injEq] at entered
  obtain ⟨waits,rfl⟩ := entered
  have quiet : ∀ other, view (w.take ⟨key,fails,.entering now⟩) other = view w other :=
    fun other => view_quiet waits (share_entering other rfl)
  have refreshes := (bounded key).refreshes (timely_view timely)
  have held : ((view w key).refreshed limits now).entry = some (entryAt limits w.entries key now) := entryAt_view w key now
  have taken : entryAt limits (w.take ⟨key,fails,.entering now⟩).entries key now = entryAt limits w.entries key now := rfl
  unfold checkAndIncrement
  simp only [taken]
  by_cases full : limits.maxRequests ≤ (entryAt limits w.entries key now).count
  · simp only [if_pos full,Bool.false_eq_true,if_false]
    rw [refreshed_view limits,quiet,quiet]
    split
    · rw [← held]
      exact refreshes
    · exact bounded other
  · simp only [if_neg full,if_true,startWindow_passed,startWindow_counted]
    rw [charged_view limits,quiet,quiet]
    obtain ⟨pending,passed,counted⟩ := refreshed_rest limits (view w key) now
    split
    · have none_ : ((view w key).refreshed limits now).pending = 0 := pending.trans (counting.pending key)
      obtain ⟨entry,present,live⟩ := refreshed_live limits (view w key) now
      cases held.symm.trans present
      have charged := refreshes.counts none_ held (refreshed_timely (timely_view timely)) (live.imp id And.left) (by omega)
      rw [passed,counted] at charged
      rw [counting.pending key]
      exact charged
    · exact bounded other

theorem record_counts {w after : World} (bounded : ∀ key, Bounded limits (view w key)) (ordered : Ordered w)
    (timely : Timely limits w key now) (recorded : step limits middleware w (.record key checked now) = some after) (other : String) :
    Bounded limits (view after other) := by
  unfold step at recorded
  simp only [Option.ite_none_right_eq_some,Option.some.injEq] at recorded
  obtain ⟨waits,rfl⟩ := recorded
  have earlier : checked ≤ now := ordered _ waits
  have owed : share key ⟨key,true,.leaving checked now⟩ = {checked} := by simp [share,Request.letThrough]
  have gone := view_take waits
  have refreshes := (bounded key).refreshes (timely_view timely)
  have held : ((view w key).refreshed limits now).entry = some (entryAt limits w.entries key now) := entryAt_view w key now
  unfold recordAttempt
  rw [charged_view limits]
  split
  · obtain ⟨pending,passed,counted⟩ := refreshed_rest limits (view w key) now
    obtain ⟨entry,present,live⟩ := refreshed_live limits (view w key) now
    cases held.symm.trans present
    have waiting : ((view w key).refreshed limits now).pending =
        checked ::ₘ (view (w.take ⟨key,true,.leaving checked now⟩) key).pending := by
      rw [pending,gone key,owed]
      rfl
    have charged := refreshes.records held waiting (refreshed_timely (timely_view timely)) live earlier
    rw [passed,counted,gone key,refreshed_started] at charged
    exact charged
  · rename_i different
    have same := bounded other
    rw [gone other,share_other (Ne.symm different),Multiset.zero_add] at same
    exact same

theorem enter_admits {w after : World} (bounded : ∀ key, Bounded limits (view w key))
    (within : Within limits .failuresOnly w (.enter key fails now))
    (entered : step limits .failuresOnly w (.enter key fails now) = some after) (other : String) : Bounded limits (view after other) := by
  unfold step at entered
  simp only [Option.ite_none_right_eq_some,Option.some.injEq] at entered
  obtain ⟨waits,rfl⟩ := entered
  have quiet : view (w.take ⟨key,fails,.entering now⟩) other = view w other := view_quiet waits (share_entering other rfl)
  split
  · rename_i admitted
    rw [view_add,quiet]
    by_cases same : key = other
    · cases fails with
      | false =>
        rw [share_succeeds rfl,Multiset.zero_add]
        exact bounded other
      | true =>
        subst same
        obtain ⟨timely,room⟩ := within rfl admitted
        have owed : share key ⟨key,true,.handling now⟩ = {now} := by simp [share,Request.letThrough]
        have length : (view w key).pending.card = (w.pending key).length := Multiset.coe_card _
        rw [owed,Multiset.singleton_add]
        refine (bounded key).joins (timely_view timely) (fun entry present live => ?_) (by omega)
        have counted : recorded w.entries key now = entry.count := by
          have held : w.entries.lookup key = some entry := present
          simp [recorded,held,live]
        omega
    · rw [share_other same,Multiset.zero_add]
      exact bounded other
  · rw [quiet]
    exact bounded other

theorem cleanup_view (w : World) (key : String) (now : Nat) (other : String) :
    view { w with entries := cleanup w.entries key now } other = view w other ∨
      view { w with entries := cleanup w.entries key now } other = { view w other with entry := none } := by
  unfold cleanup
  split
  · split
    · exact .inl rfl
    · by_cases same : other = key
      · refine .inr ?_
        simp only [view,lookup_erase_eq,if_pos same]
        rfl
      · refine .inl ?_
        simp only [view,lookup_erase_eq,if_neg same]
        rfl
  · exact .inl rfl

theorem bounded_step {w after : World} {event : Event} (bounded : ∀ key, Bounded limits (view w key)) (ordered : Ordered w)
    (counting : middleware = .counting → Counting w) (within : Within limits middleware w event)
    (stepped : step limits middleware w event = some after) (other : String) : Bounded limits (view after other) := by
  cases event with
  | tick now =>
    unfold step at stepped
    simp only [Option.ite_none_right_eq_some,Option.some.injEq] at stepped
    obtain ⟨_,rfl⟩ := stepped
    exact bounded other
  | arrive key fails =>
    cases stepped
    rw [view_add,share_entering other rfl,Multiset.zero_add]
    exact bounded other
  | enter key fails now =>
    cases middleware with
    | counting => exact enter_counts bounded (counting rfl) within stepped other
    | failuresOnly => exact enter_admits bounded within stepped other
  | respond key fails checked =>
    unfold step at stepped
    simp only [Option.ite_none_right_eq_some,Option.some.injEq] at stepped
    obtain ⟨waits,rfl⟩ := stepped
    have same := bounded other
    rw [view_take waits] at same
    cases fails with
    | false =>
      rw [share_succeeds rfl,Multiset.zero_add] at same
      exact same
    | true =>
      rw [if_pos rfl,view_add]
      exact same
  | record key checked now => exact record_counts bounded ordered within stepped other
  | cleanup key now =>
    unfold step at stepped
    simp only [Option.ite_none_right_eq_some,Option.some.injEq] at stepped
    obtain ⟨_,rfl⟩ := stepped
    rcases cleanup_view w key now other with stays | gone
    · rw [stays]
      exact bounded other
    · rw [gone]
      exact (bounded other).loses

theorem bounded_run {events : List Event} {w : World}
    (path : RunsWhere (step limits middleware) (Within limits middleware) start events w) (key : String) :
    Bounded limits (view w key) := by
  have ordered : ∀ {events w}, Runs (step limits middleware) start events w → Ordered w :=
    fun path => path.invariant (fun _ waits => absurd waits List.not_mem_nil) fun _ _ _ => Ordered.keeps
  have counting : ∀ {events w}, Runs (step limits middleware) start events w → middleware = .counting → Counting w := by
    intro events w path same
    subst same
    exact path.invariant (fun _ waits => absurd waits List.not_mem_nil) fun _ _ _ => Counting.keeps
  induction path generalizing key with
  | nil => exact ⟨Nat.zero_le _,nofun,nofun,nofun⟩
  | snoc prior within stepped ih =>
    exact bounded_step (fun key => ih key) (ordered prior.runs) (counting prior.runs) within stepped key

end Requests

theorem rate_limits_hold {limits : Limits} {middleware : Middleware} {events : List Event} {w : World}
    (path : RunsWhere (step limits middleware) (Within limits middleware) start events w) (key : String) (begun : Nat)
    (window : (key,begun) ∈ w.started) :
    within limits begun (w.attempts key) ≤ limits.maxRequests ∧
      within limits begun (timesOf w.counted key) ≤ limits.maxRequests := by
  have member : begun ∈ (view w key).started := List.mem_filterMap.mpr ⟨(key,begun),window,by simp⟩
  obtain ⟨through,counted⟩ := (bounded_run path key).windows begun member
  have attempts : (view w key).attempts = (w.attempts key : Multiset Nat) := Multiset.coe_add _ _
  rw [attempts] at through
  exact ⟨through,counted⟩


theorem rate_limits_hold_one_failure :
    ∃ w : World, ("10.0.0.1",0) ∈ w.started ∧ within auth 0 (w.attempts "10.0.0.1") = 1 ∧ within auth 0 (w.attempts "10.0.0.1") ≤ 5 := by
  have none_ : ∀ w : World, w.started = [] → Timely auth w "10.0.0.1" 0 := fun w empty begun known => by simp [empty] at known
  have path : ∃ w, RunsWhere (step auth .failuresOnly) (Within auth .failuresOnly) start
      [.arrive "10.0.0.1" true,.enter "10.0.0.1" true 0,.respond "10.0.0.1" true 0,.record "10.0.0.1" 0 0] w ∧
      w.started = [("10.0.0.1",0)] ∧ within auth 0 (w.attempts "10.0.0.1") = 1 :=
    ⟨_,.cons trivial rfl (.cons (fun _ _ => ⟨none_ _ rfl,by decide⟩) rfl (.cons trivial rfl (.cons (none_ _ rfl) rfl .nil))),
      rfl,by decide⟩
  obtain ⟨w,ran,started,attempts⟩ := path
  have known : ("10.0.0.1",0) ∈ w.started := by simp [started]
  exact ⟨w,known,attempts,(rate_limits_hold ran "10.0.0.1" 0 known).1⟩

def concurrentFailures : List Event :=
  List.replicate 6 (.arrive "10.0.0.1" true) ++ List.replicate 6 (.enter "10.0.0.1" true 0) ++
    List.replicate 6 (.respond "10.0.0.1" true 0) ++ List.replicate 6 (.record "10.0.0.1" 0 0)

-- The clock is read at the end of the first window, the entry taken in the second.
def lateAction : List Event :=
  (List.replicate 20 [.arrive "user" false,.enter "user" false 0]).flatten ++
    [.tick 59999,.arrive "user" false,.tick 60000,.arrive "user" false,.enter "user" false 60000,.enter "user" false 59999]

theorem limits_exceeded :
    (∃ w, Runs (step auth .failuresOnly) start concurrentFailures w ∧ ("10.0.0.1",0) ∈ w.started ∧
      within auth 0 (w.attempts "10.0.0.1") = 6) ∧
    (∃ w, Runs (step authenticatedAction .counting) start lateAction w ∧ ("user",0) ∈ w.started ∧
      within authenticatedAction 0 (w.attempts "user") = 21) := by
  refine ⟨⟨_,exec_exact.mp rfl,?_,?_⟩,⟨_,exec_exact.mp rfl,?_,?_⟩⟩ <;> decide

end AlineaCopilot.RateLimiter

import AlineaCopilot.LarkFrames
open AlineaCopilot.ChannelPlatforms AlineaCopilot.KeyedMaps AlineaCopilot.Reassembly AlineaCopilot.RustPanics

namespace AlineaCopilot.LarkFrames

variable {decoders : Decoders} {m : LarkMessage} {start : LarkSession} {before rest arrivals : List Arrival}

section Arrivals

theorem seqs_snoc (decoders : Decoders) (m : LarkMessage) (before : List Arrival) (arrival : Arrival) :
    seqs decoders m (before ++ [arrival]) = seqs decoders m before ++ (seqOf decoders m arrival).toList := by
  unfold seqs
  rw [List.filterMap_append,List.filterMap_cons]
  cases seqOf decoders m arrival <;> rfl

theorem seqs_some (some_ : seqs decoders m rest ≠ []) : ∃ arrival ∈ rest, (seqOf decoders m arrival).isSome = true := by
  obtain ⟨i,inside⟩ := List.exists_mem_of_ne_nil _ some_
  obtain ⟨arrival,member,found⟩ := List.mem_filterMap.mp inside
  exact ⟨arrival,member,Option.isSome_iff_exists.mpr ⟨i,found⟩⟩

theorem run_snoc (start : LarkSession) (before : List Arrival) (arrival : Arrival) :
    run decoders start (before ++ [arrival]) = (run decoders start before).bind fun first =>
      (step decoders first.1 arrival).bind fun later => pure (later.1,first.2 ++ later.2) := by
  induction before generalizing start with
  | nil =>
    show (step decoders start arrival).bind _ = (step decoders start arrival).bind fun later => pure (later.1,[] ++ later.2)
    rcases step decoders start arrival with p | ⟨after,log⟩
    · rfl
    · show Except.ok (after,log ++ []) = Except.ok (after,[] ++ log)
      rw [List.append_nil,List.nil_append]
  | cons head rest ih =>
    show (step decoders start head).bind _ = ((step decoders start head).bind _).bind _
    rcases step decoders start head with p | ⟨middle,log⟩
    · rfl
    · show (run decoders middle (rest ++ [arrival])).bind _ = ((run decoders middle rest).bind _).bind _
      rw [ih]
      rcases run decoders middle rest with p | ⟨after,more⟩
      · rfl
      · show ((step decoders after arrival).bind _).bind _ = (step decoders after arrival).bind _
        rcases step decoders after arrival with p | ⟨final,last⟩
        · rfl
        · show Except.ok (final,log ++ (more ++ last)) = Except.ok (final,log ++ more ++ last)
          rw [List.append_assoc]

end Arrivals

section Keeping

def since (decoders : Decoders) (m : LarkMessage) (before : List Arrival) (instant : Instant) : Prop :=
  ∃ arrival ∈ before, (seqOf decoders m arrival).isSome = true ∧ arrival.instant = instant

theorem since_later (before_ : since decoders m before instant) (arrival : Arrival) : since decoders m (before ++ [arrival]) instant := by
  obtain ⟨first,inside,rest⟩ := before_
  exact ⟨first,List.mem_append_left _ inside,rest⟩

-- A frame of the message is still to come, or is what came last.
def Current (decoders : Decoders) (m : LarkMessage) (before rest : List Arrival) : Prop :=
  seqs decoders m rest ≠ [] ∨ ∃ earlier arrival, before = earlier ++ [arrival] ∧ (seqOf decoders m arrival).isSome = true

structure Kept (decoders : Decoders) (m : LarkMessage) (before rest : List Arrival) (s : LarkSession) (log : Log) : Prop where
  idle : (collect m.parts.length (seqs decoders m before)).pending = [] → s.fragmentCache.lookup m.id = none
  held : Current decoders m before rest →
    Held m s.fragmentCache (collect m.parts.length (seqs decoders m before)).pending (since decoders m before)
  dedup : Current decoders m before rest → ∀ eid, m.eventId decoders = some eid →
    ((s.dedupCache.lookup eid).isSome = true ↔ 0 < (collect m.parts.length (seqs decoders m before)).rounds) ∧
      ∀ instant, s.dedupCache.lookup eid = some instant → since decoders m before instant
  told : (log.filter (·.1 = m.id)).length =
    if (m.eventId decoders).isSome then min (collect m.parts.length (seqs decoders m before)).rounds 1
    else (collect m.parts.length (seqs decoders m before)).rounds
  tells : ∀ entry ∈ log, entry.1 = m.id → ∃ now, m.message decoders now = some entry.2

theorem Held.same {cache other : FragmentCache} {pending : List Nat} {since since' : Instant → Prop} (held : Held m cache pending since)
    (same : other.lookup m.id = cache.lookup m.id) (wider : ∀ instant, since instant → since' instant) : Held m other pending since' := by
  refine ⟨fun none => same.trans (held.idle none),fun some_ => ?_⟩
  obtain ⟨entry,found,sum,slots_,at_⟩ := held.partly some_
  exact ⟨entry,same.trans found,sum,slots_,wider _ at_⟩

-- An arrival that is no frame of the message.
theorem Kept.passes (kept : Kept decoders m before (arrival :: rest) s log) (other : seqOf decoders m arrival = none)
    (idle : s.fragmentCache.lookup m.id = none → after.fragmentCache.lookup m.id = none)
    (cache : seqs decoders m rest ≠ [] → ∀ entry, s.fragmentCache.lookup m.id = some entry → since decoders m before entry.createdAt →
      after.fragmentCache.lookup m.id = some entry)
    (dedup : seqs decoders m rest ≠ [] → ∀ eid, m.eventId decoders = some eid →
      (∀ instant, s.dedupCache.lookup eid = some instant → since decoders m before instant) →
      after.dedupCache.lookup eid = s.dedupCache.lookup eid)
    (logged : ∀ entry ∈ more, entry.1 ≠ m.id) :
    Kept decoders m (before ++ [arrival]) rest after (log ++ more) := by
  have same : seqs decoders m (before ++ [arrival]) = seqs decoders m before := by
    rw [seqs_snoc,other]
    exact List.append_nil _
  have coming : Current decoders m (before ++ [arrival]) rest → seqs decoders m rest ≠ [] := by
    rintro (coming | ⟨earlier,last,whole,own⟩)
    · exact coming
    · cases (List.append_inj' whole rfl).2
      rw [other] at own
      cases own
  have current : seqs decoders m rest ≠ [] → Current decoders m before (arrival :: rest) := by
    intro coming
    refine .inl ?_
    rw [seqs,List.filterMap_cons,other]
    exact coming
  have silent : more.filter (·.1 = m.id) = [] := by
    rw [List.filter_eq_nil_iff]
    exact fun entry inside => by simpa using logged entry inside
  constructor
  · rw [same]
    exact fun none => idle (kept.idle none)
  · rw [same]
    intro now
    have held := kept.held (current (coming now))
    refine ⟨fun none => idle (held.idle none),fun some_ => ?_⟩
    obtain ⟨entry,found,sum,slots_,at_⟩ := held.partly some_
    exact ⟨entry,cache (coming now) entry found at_,sum,slots_,since_later at_ _⟩
  · rw [same]
    intro now eid named
    obtain ⟨seen,since_⟩ := kept.dedup (current (coming now)) eid named
    rw [dedup (coming now) eid named since_]
    exact ⟨seen,fun instant found => since_later (since_ instant found) _⟩
  · rw [same,List.filter_append,silent,List.append_nil]
    exact kept.told
  · intro entry inside own
    rcases List.mem_append.mp inside with before_ | now
    · exact kept.tells entry before_ own
    · exact absurd own (logged entry now)

theorem text_given (leads : ∀ now, (m.message decoders now).isSome = true) : ∃ text, m.text = some text := by
  cases given : m.text with
  | some text => exact ⟨text,rfl⟩
  | none =>
    have led := leads 0
    rw [LarkMessage.message,given] at led
    cases led

theorem lookup_noted_other {eventId : Option String} (apart : eventId ≠ some eid) (dedup : KeyedMap String Instant) (instant : Instant) :
    (noted eventId dedup instant).lookup eid = dedup.lookup eid := by
  cases eventId with
  | none => rfl
  | some other => exact AList.lookup_insert_ne fun same => apart (congrArg some same.symm)

theorem duplicate_seen {eid : String} {dedup : KeyedMap String Instant} {rounds : Nat} (seen : (dedup.lookup eid).isSome = true ↔ 0 < rounds) :
    duplicate (some eid) dedup = decide (0 < rounds) := by
  rw [duplicate,Option.any_some,Bool.eq_iff_iff,decide_eq_true_iff]
  exact seen

theorem Kept.own {data : List UInt8} {now : Int64} {instant : Instant} {s : LarkSession} {log : Log}
    (kept : Kept decoders m before (.frame now instant data :: rest) s log) (carries : Carries decoders m data)
    (leads : ∀ now, (m.message decoders now).isSome = true) :
    ∃ after more, step decoders s (.frame now instant data) = .ok (after,more) ∧
      Kept decoders m (before ++ [Arrival.frame now instant data]) rest after (log ++ more) ∧
      (∀ other, other ≠ m.id → after.fragmentCache.lookup other = s.fragmentCache.lookup other) ∧
      (∀ eid, m.eventId decoders ≠ some eid → after.dedupCache.lookup eid = s.dedupCache.lookup eid) ∧ ∀ entry ∈ more, entry.1 = m.id := by
  obtain ⟨frame,read,method,named,typed,sum,found⟩ := carries
  obtain ⟨text,given⟩ := text_given leads
  have own : seqOf decoders m (.frame now instant data) = some frame.seq.toNat := by
    rw [seqOf,read,Option.bind_some,if_pos named]
  have current : Current decoders m before (.frame now instant data :: rest) := by
    refine .inl ?_
    rw [seqs,List.filterMap_cons,own]
    exact List.cons_ne_nil _ _
  have held := (kept.held current).same rfl fun at_ before_ => since_later before_ (.frame now instant data)
  have here : since decoders m (before ++ [Arrival.frame now instant data]) instant :=
    ⟨_,List.mem_append_right _ List.mem_cons_self,by rw [own]; rfl,rfl⟩
  obtain ⟨after,more,stepped,held',others,dedup,told⟩ :=
    own_step now read method named typed sum found given held here (collect m.parts.length (seqs decoders m before)).rounds
  have collected : collect m.parts.length (seqs decoders m (before ++ [Arrival.frame now instant data])) =
      arrive m.parts.length (collect m.parts.length (seqs decoders m before)) frame.seq.toNat := by
    rw [seqs_snoc,own]
    exact collect_snoc _ _ _
  obtain ⟨message,led⟩ := Option.isSome_iff_exists.mp (leads now)
  rw [led] at told
  refine ⟨after,more,stepped,?_,others,fun eid apart => ?_,?_⟩
  · have counted : (arrive m.parts.length (collect m.parts.length (seqs decoders m before)) frame.seq.toNat).rounds =
        (collect m.parts.length (seqs decoders m before)).rounds +
          if whole m.parts.length (frame.seq.toNat :: (collect m.parts.length (seqs decoders m before)).pending) then 1 else 0 := by
      rw [arrive]
      split <;> rfl
    refine ⟨fun none => held'.idle (collected ▸ none),fun _ => collected ▸ held',fun _ eid event => ?_,?_,fun entry inside mine => ?_⟩
    · obtain ⟨seen,since_⟩ := kept.dedup current eid event
      rw [collected,counted,dedup,event,duplicate_seen seen]
      by_cases positive : 0 < (collect m.parts.length (seqs decoders m before)).rounds
      · rw [decide_eq_true positive,Bool.not_true,Bool.and_false,if_neg Bool.false_ne_true]
        exact ⟨iff_of_true (seen.mpr positive) (Nat.lt_of_lt_of_le positive (Nat.le_add_right _ _)),
          fun at_ found => since_later (since_ at_ found) _⟩
      · rw [decide_eq_false positive,Bool.not_false,Bool.and_true,Nat.eq_zero_of_not_pos positive]
        split
        · rw [noted,AList.lookup_insert]
          refine ⟨iff_of_true rfl Nat.one_pos,fun at_ same => ?_⟩
          cases same
          exact here
        · exact ⟨iff_of_false (fun present => positive (seen.mp present)) (Nat.lt_irrefl 0),
            fun at_ found => since_later (since_ at_ found) _⟩
    · rw [List.filter_append,List.length_append,kept.told,collected,counted,told]
      cases event : m.eventId decoders with
      | none =>
        rw [show duplicate none s.dedupCache = false from rfl,Bool.not_false,Bool.and_true]
        cases whole m.parts.length (frame.seq.toNat :: (collect m.parts.length (seqs decoders m before)).pending) <;> simp
      | some eid =>
        obtain ⟨seen,_⟩ := kept.dedup current eid event
        rw [Option.isSome_some,if_pos rfl,if_pos rfl,duplicate_seen seen]
        by_cases positive : 0 < (collect m.parts.length (seqs decoders m before)).rounds
        · rw [decide_eq_true positive,Bool.not_true,Bool.and_false,if_neg Bool.false_ne_true,List.filter_nil,List.length_nil]
          omega
        · rw [decide_eq_false positive,Bool.not_false,Bool.and_true,Nat.eq_zero_of_not_pos positive]
          cases whole m.parts.length (frame.seq.toNat :: (collect m.parts.length (seqs decoders m before)).pending) <;> simp
    · rcases List.mem_append.mp inside with before_ | after_
      · exact kept.tells entry before_ mine
      · rw [told] at after_
        split at after_
        · cases List.mem_singleton.mp after_
          exact ⟨now,led⟩
        · exact absurd after_ List.not_mem_nil
  · rw [dedup]
    split
    · exact lookup_noted_other apart _ _
    · rfl
  · rw [told]
    split
    · exact List.forall_mem_singleton.mpr rfl
    · exact fun _ inside => absurd inside List.not_mem_nil

end Keeping

section Running
variable {messages : List LarkMessage}

structure Fresh (decoders : Decoders) (messages : List LarkMessage) (start : LarkSession) : Prop where
  cache : ∀ m ∈ messages, start.fragmentCache.lookup m.id = none
  dedup : ∀ m ∈ messages, ∀ eid, m.eventId decoders = some eid → start.dedupCache.lookup eid = none

theorem kept_start (fresh : Fresh decoders messages start) (inside : m ∈ messages) : Kept decoders m [] rest start [] := by
  refine ⟨fun _ => fresh.cache m inside,fun _ => ⟨fun _ => fresh.cache m inside,fun some_ => absurd rfl some_⟩,fun _ eid event => ?_,?_,
    fun _ none => absurd none List.not_mem_nil⟩
  · rw [fresh.dedup m inside eid event]
    refine ⟨iff_of_false Bool.false_ne_true (Nat.lt_irrefl 0),fun at_ found => ?_⟩
    cases found
  · split <;> rfl

theorem step_kept (delivered : Delivered decoders messages (before ++ arrival :: rest))
    (kept : ∀ m ∈ messages, Kept decoders m before (arrival :: rest) s log) :
    ∃ after more, step decoders s arrival = .ok (after,more) ∧ ∀ m ∈ messages, Kept decoders m (before ++ [arrival]) rest after (log ++ more) := by
  have here : arrival ∈ before ++ arrival :: rest := List.mem_append_right _ List.mem_cons_self
  -- What came for a message is less than the time to live old while more of it is to come.
  have young : ∀ m ∈ messages, seqs decoders m rest ≠ [] → ∀ instant, since decoders m before instant →
      arrival.instant - instant < 300 * 10 ^ 9 := by
    intro m inside coming instant ⟨first,there,own,at_⟩
    obtain ⟨last,later,own'⟩ := seqs_some coming
    have bound := delivered.within m inside first (List.mem_append_left _ there) last
      (List.mem_append_right _ (List.mem_cons_of_mem _ later)) own own'
    have ordered : arrival.instant ≤ last.instant :=
      (List.pairwise_cons.mp (List.pairwise_append.mp delivered.ordered).2.1).1 last later
    rw [at_] at bound
    exact Nat.lt_of_le_of_lt (Nat.sub_le_sub_right ordered instant) bound
  cases arrival with
  | frame now instant data =>
    obtain ⟨owner,inside,carries⟩ := delivered.framed now instant data here
    obtain ⟨after,more,stepped,kept',cache,dedup,mine⟩ := (kept owner inside).own carries (delivered.leads owner inside)
    refine ⟨after,more,stepped,fun m member => ?_⟩
    by_cases same : m = owner
    · exact same ▸ kept'
    · have apart : m.id ≠ owner.id := fun ids => same (delivered.distinct m member owner inside ids)
      have other : seqOf decoders m (.frame now instant data) = none := by
        obtain ⟨frame,read,_,named,_⟩ := carries
        rw [seqOf,read,Option.bind_some,if_neg fun ids => apart (ids.symm.trans named)]
      refine (kept m member).passes other (fun idle => (cache m.id apart).trans idle) (fun _ entry found _ => (cache m.id apart).trans found)
        (fun _ eid event _ => dedup eid fun event' => same (delivered.events m member owner inside eid event event'))
        fun entry inside' ids => apart (ids.symm.trans (mine entry inside'))
  | ping instant =>
    refine ⟨_,[],rfl,fun m member => (kept m member).passes rfl (fun idle => ?_) (fun coming entry found at_ => ?_) (fun _ _ _ _ => rfl)
      fun _ none => absurd none List.not_mem_nil⟩
    · show (FragmentCache.cleanup s.fragmentCache instant 300).lookup m.id = none
      rw [FragmentCache.cleanup,lookup_keep,idle]
      rfl
    · show (FragmentCache.cleanup s.fragmentCache instant 300).lookup m.id = some entry
      rw [FragmentCache.cleanup,lookup_keep,found,Option.filter_some,if_pos]
      exact decide_eq_true (young m member coming entry.createdAt at_)
  | sweep instant =>
    refine ⟨_,[],rfl,fun m member => (kept m member).passes rfl (fun idle => idle) (fun _ _ found _ => found) (fun coming eid _ since_ => ?_)
      fun _ none => absurd none List.not_mem_nil⟩
    show (cleanupExpiredEvents s.dedupCache instant).lookup eid = _
    rw [cleanupExpiredEvents,lookup_keep]
    cases found : s.dedupCache.lookup eid with
    | none => rfl
    | some at_ =>
      rw [Option.filter_some,if_pos]
      exact decide_eq_true (young m member coming at_ (since_ at_ found))

theorem kept_run (fresh : Fresh decoders messages start) (before rest : List Arrival) (delivered : Delivered decoders messages (before ++ rest)) :
    ∃ s log, run decoders start before = .ok (s,log) ∧ ∀ m ∈ messages, Kept decoders m before rest s log := by
  induction before using List.reverseRecOn generalizing rest with
  | nil => exact ⟨start,[],rfl,fun m inside => kept_start fresh inside⟩
  | append_singleton before arrival ih =>
    rw [List.append_assoc,List.singleton_append] at delivered
    obtain ⟨s,log,ran,kept⟩ := ih (arrival :: rest) delivered
    obtain ⟨after,more,stepped,kept'⟩ := step_kept delivered kept
    refine ⟨after,log ++ more,?_,kept'⟩
    rw [run_snoc,ran]
    show (step decoders s arrival).bind _ = _
    rw [stepped]
    rfl

theorem Clean.settled (clean : Clean decoders arrivals m) (below : ∀ i ∈ seqs decoders m arrivals, i < m.parts.length) :
    (collect m.parts.length (seqs decoders m arrivals)).pending = [] := by
  unfold Clean at clean
  split at clean
  · exact (pending_nil_iff m.some_ below).mpr clean
  · exact ((single_round_iff m.some_ below).mpr clean).2

theorem seqs_below (delivered : Delivered decoders messages arrivals) (inside : m ∈ messages) :
    ∀ i ∈ seqs decoders m arrivals, i < m.parts.length := by
  intro i member
  obtain ⟨arrival,there,own⟩ := List.mem_filterMap.mp member
  cases arrival with
  | frame now instant data =>
    obtain ⟨owner,inside',frame,read,_,named,_,_,found⟩ := delivered.framed now instant data there
    rw [seqOf,read,Option.bind_some] at own
    split at own
    · rename_i ids
      cases delivered.distinct owner inside' m inside (named.symm.trans ids)
      cases own
      exact (List.getElem?_eq_some_iff.mp found).1
    · cases own
  | ping _ | sweep _ => cases own

-- The last frame of a message, and what comes after it.
theorem last_own (all : ∀ i < m.parts.length, i ∈ seqs decoders m arrivals) : ∃ earlier arrival later,
    arrivals = (earlier ++ [arrival]) ++ later ∧ (seqOf decoders m arrival).isSome = true ∧ seqs decoders m later = [] := by
  have some_ : seqs decoders m arrivals ≠ [] := List.ne_nil_of_mem (all 0 m.some_)
  clear all
  induction arrivals using List.reverseRecOn with
  | nil => exact absurd rfl some_
  | append_singleton before arrival ih =>
    cases own : seqOf decoders m arrival with
    | some i => exact ⟨before,arrival,[],(List.append_nil _).symm,by rw [own]; rfl,rfl⟩
    | none =>
      rw [seqs_snoc,own,Option.toList_none,List.append_nil] at some_
      obtain ⟨earlier,last,later,rfl,mine,rest⟩ := ih some_
      refine ⟨earlier,last,later ++ [arrival],by rw [List.append_assoc _ later],mine,?_⟩
      rw [seqs_snoc,own,rest]
      rfl

end Running

-- However the fragments are ordered and mixed, a message goes out once and leaves
-- nothing behind exactly if its frames make whole rounds, and one round only where no
-- event id tells a second one from the first.
theorem handed_once_iff {messages : List LarkMessage} (fresh : Fresh decoders messages start) (delivered : Delivered decoders messages arrivals) :
    ∀ m ∈ messages, HandedOnce decoders start arrivals m ↔ Clean decoders arrivals m := by
  intro m inside
  have below := seqs_below delivered inside
  obtain ⟨final,log,ran,kept⟩ := kept_run fresh arrivals [] (by rw [List.append_nil]; exact delivered)
  have kept := kept m inside
  have positive := rounds_pos m.some_ (delivered.all m inside)
  constructor
  · intro handed
    have settled : (collect m.parts.length (seqs decoders m arrivals)).pending = [] := by
      obtain ⟨earlier,arrival,later,rfl,own,none⟩ := last_own (delivered.all m inside)
      obtain ⟨s,log',ran',kept'⟩ := kept_run fresh (earlier ++ [arrival]) later delivered
      obtain ⟨s',log'',ran'',absent⟩ := handed.clean _ _ rfl none
      cases ran'.symm.trans ran''
      have held := (kept' m inside).held (.inr ⟨earlier,arrival,rfl,own⟩)
      have same : seqs decoders m (earlier ++ [arrival] ++ later) = seqs decoders m (earlier ++ [arrival]) := by
        show List.filterMap _ _ = _
        rw [List.filterMap_append,show List.filterMap (seqOf decoders m) later = [] from none,List.append_nil]
        rfl
      rw [same]
      by_contra some_
      obtain ⟨entry,found,_⟩ := held.partly some_
      rw [absent] at found
      cases found
    unfold Clean
    split
    · exact (pending_nil_iff m.some_ below).mp settled
    · rename_i unnamed
      obtain ⟨final',log',now,message,ran',_,single⟩ := handed.once
      cases ran.symm.trans ran'
      have told := kept.told
      rw [single,if_neg unnamed] at told
      exact (single_round_iff m.some_ below).mp ⟨told.symm,settled⟩
  · intro clean
    have settled := clean.settled below
    refine ⟨?_,fun before after split_ none => ?_⟩
    · have one : (log.filter (·.1 = m.id)).length = 1 := by
        rw [kept.told]
        unfold Clean at clean
        split
        · omega
        · rename_i unnamed
          rw [if_neg unnamed] at clean
          exact ((single_round_iff m.some_ below).mpr clean).1
      obtain ⟨⟨name,message⟩,single⟩ := List.length_eq_one_iff.mp one
      have member : (name,message) ∈ log.filter (·.1 = m.id) := by rw [single]; exact List.mem_cons_self
      obtain ⟨there,named⟩ := List.mem_filter.mp member
      obtain rfl : name = m.id := of_decide_eq_true named
      obtain ⟨now,led⟩ := kept.tells _ there rfl
      exact ⟨final,log,now,message,ran,led,single⟩
    · subst split_
      obtain ⟨s,log',ran',kept'⟩ := kept_run fresh before after delivered
      refine ⟨s,log',ran',(kept' m inside).idle ?_⟩
      have same : seqs decoders m (before ++ after) = seqs decoders m before := by
        show List.filterMap _ _ = _
        rw [List.filterMap_append,show List.filterMap (seqOf decoders m) after = [] from none,List.append_nil]
        rfl
      rw [← same]
      exact settled

section Cards

-- One card action in two fragments, the data of a frame being the number of its fragment.
def card : LarkMessage := ⟨"om_1",true,[[0x7b],[0x7d]],by decide,by decide⟩

def cardFrame (seq : UInt8) : PbFrame :=
  ⟨0,0,0,1,[("message_id","om_1"),("sum","2"),("seq",if seq = 0 then "0" else "1"),("type","card")],[if seq = 0 then 0x7b else 0x7d],""⟩

def cardDecoders : Decoders where
  streamFrame _ := none
  botMessage _ := none
  cardActionCallback _ := none
  value _ := some (.object [])
  pbFrame
    | [seq] => some (cardFrame seq)
    | _ => none
  pingInterval _ := none
  messageEvent _ := none
  cardActionEvent _ := some ⟨"ou_1",none,"om_1",none⟩
  botMenuEvent _ := none
  textContent _ := none
  imageContent _ := none
  fileContent _ := none
  audioContent _ := none

def connected : LarkSession := ⟨∅,∅,120,0⟩

theorem handed_once_card : HandedOnce cardDecoders connected [.frame 0 1 [1],.ping 2,.frame 0 3 [0]] card := by
  have fresh : Fresh cardDecoders [card] connected := ⟨fun _ _ => rfl,fun _ _ _ _ => rfl⟩
  have delivered : Delivered cardDecoders [card] [.frame 0 1 [1],.ping 2,.frame 0 3 [0]] := by
    refine ⟨?_,?_,List.forall_mem_singleton.mpr fun now => rfl,?_,List.forall_mem_singleton.mpr ?_,?_,?_⟩
    · rintro m inside other inside' _
      rw [List.mem_singleton.mp inside,List.mem_singleton.mp inside']
    · rintro m inside other inside' _ _ _
      rw [List.mem_singleton.mp inside,List.mem_singleton.mp inside']
    · intro now instant data inside
      refine ⟨card,List.mem_cons_self,?_⟩
      simp only [List.mem_cons,Arrival.frame.injEq,List.not_mem_nil,or_false,reduceCtorEq,false_or] at inside
      rcases inside with ⟨_,_,rfl⟩ | ⟨_,_,rfl⟩
      · exact ⟨cardFrame 1,rfl,rfl,rfl,rfl,rfl,rfl⟩
      · exact ⟨cardFrame 0,rfl,rfl,rfl,rfl,rfl,rfl⟩
    · intro i below
      have listed : seqs cardDecoders card [.frame 0 1 [1],.ping 2,.frame 0 3 [0]] = [1,0] := rfl
      rw [listed]
      have below : i < 2 := below
      rw [List.mem_cons,List.mem_singleton]
      omega
    · simp [Arrival.instant]
    · intro _ _ a inside b inside' _ _
      have early : ∀ arrival ∈ [Arrival.frame 0 1 [1],.ping 2,.frame 0 3 [0]], arrival.instant ≤ 3 := by simp [Arrival.instant]
      exact Nat.lt_of_le_of_lt (Nat.sub_le _ _) (Nat.lt_of_le_of_lt (early b inside') (by decide))
  have clean : Clean cardDecoders [.frame 0 1 [1],.ping 2,.frame 0 3 [0]] card := by
    refine ⟨[1],0,rfl,by decide,fun i below => ?_⟩
    exact delivered.all card List.mem_cons_self i below
  exact (handed_once_iff fresh delivered card List.mem_cons_self).mpr clean

-- The fragments come twice, or the first of them once more.
theorem redelivered_card :
    (run cardDecoders connected [.frame 0 1 [0],.frame 0 2 [1],.frame 0 3 [0],.frame 0 4 [1]]).map (fun r => r.2.map (·.1)) =
        .ok ["om_1","om_1"] ∧
      (run cardDecoders connected [.frame 0 1 [0],.frame 0 2 [1],.frame 0 3 [0]]).map (fun r => (r.1.fragmentCache.lookup "om_1").isSome) =
        .ok true :=
  ⟨rfl,rfl⟩

end Cards

end AlineaCopilot.LarkFrames

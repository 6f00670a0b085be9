import AlineaCopilot.ResponseMiddleware

open AlineaCopilot.LeftmostScans AlineaCopilot.TextMarkers AlineaCopilot.ResponseMiddleware

namespace AlineaCopilot.CronExtraction

-- A command with the place where its block starts.
abbrev Located := Nat × CronCommand

def kinds : List CronKind := [.create,.update,.list,.delete]

def commandOf : CronKind → Captures → Option CronCommand
  | .create => createCommand
  | .update => updateCommand
  | .list => fun _ => some .list
  | .delete => deleteCommand

def located (kind : CronKind) (found : Found Char) : Option Located :=
  (commandOf kind (kind.captures found)).map (Prod.mk found.place)

-- The matches of a kind's own pattern that are executed. Of the list commands it
-- is the first.
def matched (kind : CronKind) (text : List Char) : List (Found Char) :=
  match kind with
  | .list => (scan kind.hit 0 0 text).take 1
  | .create | .update | .delete => scan kind.hit 0 0 text

def executed (text : List Char) : List Located := kinds.flatMap fun kind => (matched kind text).filterMap (located kind)

-- The kind of the block at the head of a text.
def kindAt (text : List Char) : Option CronKind := kinds.find? fun kind => (kind.hit text).isSome

def blockHit (text : List Char) : Option Nat := (kindAt text).bind fun kind => kind.hit text

-- The commands as they are written: the blocks from left to right, whatever
-- their kind, the next one behind the end of the one before.
def written (text : List Char) : List Located :=
  (scan blockHit 0 0 text).filterMap fun found => (kindAt found.text).bind fun kind => located kind found

section Detection

theorem located_commands (kind : CronKind) (matches_ : List (Found Char)) :
    (matches_.filterMap (located kind)).map Prod.snd = (matches_.map kind.captures).filterMap (commandOf kind) := by
  rw [List.map_filterMap,List.filterMap_map]
  refine List.filterMap_congr fun found _ => ?_
  simp only [located,Function.comp]
  cases commandOf kind (kind.captures found) <;> rfl

theorem first_list (text : List Char) : ((matched .list text).filterMap (located .list)).map Prod.snd =
    if occurs CronKind.list.hit text then [.list] else [] := by
  rw [occurs_scan 0]
  unfold matched
  cases scan CronKind.list.hit 0 0 text <;> rfl

-- What is detected, in the order in which it is executed.
theorem executed_commands (text : List Char) : (executed text).map Prod.snd = detectCronCommands text := by
  simp only [executed,kinds,List.flatMap_cons,List.flatMap_nil,List.append_nil,List.map_append,first_list]
  simp only [located_commands]
  simp only [detectCronCommands,List.append_assoc]
  rfl

theorem none_executed (text : List Char) (none_ : hasCronCommands text = false) : detectCronCommands text = [] := by
  have gone (kind : CronKind) (missed : occurs kind.hit text = false) : scan kind.hit 0 0 text = [] := by
    rw [occurs_scan 0] at missed
    simpa using missed
  simp only [hasCronCommands,Bool.or_eq_false_iff] at none_
  obtain ⟨⟨⟨create,update⟩,list⟩,delete⟩ := none_
  simp [detectCronCommands,CronKind.capturesIter,gone .create create,gone .update update,gone .delete delete,list]

-- The service is called for what is executed, one call after the other.
theorem process_executed {σ : Type} (service : CronService σ) (message userId conversationId : List Char) (state : σ) :
    ((process (some service) message userId conversationId state).1.systemResponses,
      (process (some service) message userId conversationId state).2) =
    service.performAll userId conversationId ((executed (stripThinkTags message)).map Prod.snd) [] state := by
  rw [executed_commands]
  unfold process
  by_cases has : hasCronCommands (stripThinkTags message) = true
  · simp [has,executeCronCommands]
  · rw [Bool.not_eq_true] at has
    simp [has,none_executed _ has,CronService.performAll]

end Detection

section Kinds
variable {kind other : CronKind} {text : List Char}

def word : CronKind → List Char
  | .create => "[CRON_CREATE]".toList
  | .update => updateWord
  | .list => "[CRON_LIST]".toList
  | .delete => deleteWord

theorem hit_word (hits : (kind.hit text).isSome = true) : word kind <+: text := by
  obtain ⟨size,found⟩ := Option.isSome_iff_exists.mp hits
  obtain ⟨reading,read,_⟩ := Option.map_eq_some_iff.mp found
  obtain ⟨opening,opens,_⟩ := Option.bind_eq_some_iff.mp read
  cases kind with
  | create | list =>
    obtain ⟨first,starts,_⟩ := Option.map_eq_some_iff.mp opens
    obtain ⟨member,starts⟩ := firstWord_starts starts
    cases List.mem_singleton.mp member
    exact starts
  | update | delete =>
    obtain ⟨inside,there,_⟩ := Option.bind_eq_some_iff.mp opens
    obtain ⟨_,rest,rfl⟩ := argument_exact.mp there
    rw [List.append_assoc]
    exact List.prefix_append _ _

theorem words_apart : ∀ kind ∈ kinds, ∀ other ∈ kinds, word kind <+: word other → kind = other := by decide

theorem every_kind (kind : CronKind) : kind ∈ kinds := by
  cases kind <;> decide

-- No two kinds of blocks begin at one place.
theorem one_kind (hits : (kind.hit text).isSome = true) (hits' : (other.hit text).isSome = true) : kind = other := by
  rcases List.prefix_or_prefix_of_prefix (hit_word hits) (hit_word hits') with shorter | longer
  · exact words_apart kind (every_kind kind) other (every_kind other) shorter
  · exact (words_apart other (every_kind other) kind (every_kind kind) longer).symm

theorem kindAt_exact : kindAt text = some kind ↔ (kind.hit text).isSome = true := by
  constructor
  · intro found
    exact List.find?_some (p := fun kind : CronKind => (kind.hit text).isSome) found
  · intro hits
    cases found : kindAt text with
    | none => exact absurd hits (List.find?_eq_none.mp found kind (every_kind kind))
    | some other =>
      have hits' := List.find?_some (p := fun kind : CronKind => (kind.hit text).isSome) found
      rw [one_kind hits hits']

theorem blockHit_exact : (blockHit text).isSome = true ↔ ∃ kind : CronKind, (kind.hit text).isSome = true := by
  unfold blockHit
  constructor
  · intro hits
    obtain ⟨size,found⟩ := Option.isSome_iff_exists.mp hits
    obtain ⟨kind,_,same⟩ := Option.bind_eq_some_iff.mp found
    exact ⟨kind,same ▸ rfl⟩
  · rintro ⟨kind,hits⟩
    rw [kindAt_exact.mpr hits]
    exact hits

theorem blockHit_sized : Sized blockHit := by
  intro text size hits
  obtain ⟨kind,_,found⟩ := Option.bind_eq_some_iff.mp hits
  exact kind.pattern.sized text size found

end Kinds

section Order
variable {kind other : CronKind} {text : List Char}

-- The command that is read where a block of the kind begins.
def readAt (kind : CronKind) (text : List Char) (i : Nat) : Option CronCommand :=
  if (kind.hit (text.drop i)).isSome then commandOf kind (kind.captures ⟨i,text.drop i⟩) else none

-- A kind's own search does not come to the place: an earlier block of the kind
-- reaches over it, or, with list commands, there is one before.
def Passed (kind : CronKind) (text : List Char) (i : Nat) : Prop :=
  match kind with
  | .list => ∃ j < i, (kind.hit (text.drop j)).isSome = true
  | .create | .update | .delete => Inside kind.hit text i

theorem matched_exact {found : Found Char} : found ∈ matched kind text ↔
    found.text = text.drop found.place ∧ (kind.hit found.text).isSome = true ∧ ¬Passed kind text found.place := by
  cases kind with
  | create | update | delete => exact scan_mem (CronKind.pattern _).sized
  | list =>
    refine (scan_first (CronKind.pattern .list).sized).trans ?_
    simp only [Passed,not_exists,not_and,Bool.not_eq_true]
    rfl

theorem kind_exact {entry : Located} : entry ∈ (matched kind text).filterMap (located kind) ↔
    readAt kind text entry.1 = some entry.2 ∧ ¬Passed kind text entry.1 := by
  constructor
  · intro member
    obtain ⟨found,there,reads⟩ := List.mem_filterMap.mp member
    obtain ⟨same,hits,free⟩ := matched_exact.mp there
    obtain ⟨command,read,rfl⟩ := Option.map_eq_some_iff.mp reads
    refine ⟨?_,free⟩
    unfold readAt
    rw [← same,if_pos hits]
    exact read
  · rintro ⟨reads,free⟩
    unfold readAt at reads
    split at reads
    · rename_i hits
      refine List.mem_filterMap.mpr ⟨⟨entry.1,text.drop entry.1⟩,matched_exact.mpr ⟨rfl,hits,free⟩,?_⟩
      unfold located
      rw [reads]
      rfl
    · cases reads

theorem executed_exact {entry : Located} : entry ∈ executed text ↔
    ∃ kind, readAt kind text entry.1 = some entry.2 ∧ ¬Passed kind text entry.1 := by
  refine List.mem_flatMap.trans ⟨?_,?_⟩
  · rintro ⟨kind,_,member⟩
    exact ⟨kind,kind_exact.mp member⟩
  · rintro ⟨kind,reads⟩
    exact ⟨kind,every_kind kind,kind_exact.mpr reads⟩

theorem written_exact {entry : Located} : entry ∈ written text ↔
    ∃ kind, readAt kind text entry.1 = some entry.2 ∧ ¬Inside blockHit text entry.1 := by
  unfold written
  rw [List.mem_filterMap]
  constructor
  · rintro ⟨found,there,reads⟩
    obtain ⟨same,_,outside⟩ := (scan_mem blockHit_sized).mp there
    obtain ⟨kind,here,reads⟩ := Option.bind_eq_some_iff.mp reads
    obtain ⟨command,read,rfl⟩ := Option.map_eq_some_iff.mp reads
    refine ⟨kind,?_,outside⟩
    unfold readAt
    rw [← same,if_pos (kindAt_exact.mp here)]
    exact read
  · rintro ⟨kind,reads,outside⟩
    unfold readAt at reads
    split at reads
    · rename_i hits
      refine ⟨⟨entry.1,text.drop entry.1⟩,(scan_mem blockHit_sized).mpr ⟨rfl,blockHit_exact.mpr ⟨kind,hits⟩,outside⟩,?_⟩
      rw [kindAt_exact.mpr hits]
      unfold located
      rw [Option.bind_some,reads]
      rfl
    · cases reads

theorem readAt_hit {i : Nat} (reads : readAt kind text i = some command) : (kind.hit (text.drop i)).isSome = true := by
  unfold readAt at reads
  split at reads
  · assumption
  · cases reads

theorem executed_here {i : Nat} (reads : readAt kind text i = some command) :
    (i,command) ∈ executed text ↔ ¬Passed kind text i := by
  refine executed_exact.trans ⟨?_,fun free => ⟨kind,reads,free⟩⟩
  rintro ⟨other,again,free⟩
  cases one_kind (readAt_hit reads) (readAt_hit again)
  exact free

theorem written_here {i : Nat} (reads : readAt kind text i = some command) :
    (i,command) ∈ written text ↔ ¬Inside blockHit text i :=
  written_exact.trans ⟨fun ⟨_,_,outside⟩ => outside,fun outside => ⟨kind,reads,outside⟩⟩

theorem located_sorted {entries : List (Found Char)} {read : Found Char → Option Located}
    (sorted : entries.Pairwise fun first second => first.place < second.place)
    (stays : ∀ found entry, read found = some entry → entry.1 = found.place) :
    (entries.filterMap read).Pairwise fun first second => first.1 < second.1 := by
  refine List.pairwise_filterMap.mpr (sorted.imp fun below first here second there => ?_)
  rw [stays _ _ here,stays _ _ there]
  exact below

theorem located_place {found : Found Char} {entry : Located} (reads : located kind found = some entry) : entry.1 = found.place := by
  obtain ⟨command,_,rfl⟩ := Option.map_eq_some_iff.mp reads
  rfl

theorem matched_sorted (kind : CronKind) (text : List Char) :
    (matched kind text).Pairwise fun first second => first.place < second.place := by
  have sorted := scan_sorted kind.pattern.sized 0 0 text
  cases kind with
  | create | update | delete => exact sorted
  | list => exact sorted.sublist (List.take_sublist _ _)

theorem written_sorted (text : List Char) : (written text).Pairwise fun first second => first.1 < second.1 := by
  refine located_sorted (scan_sorted blockHit_sized 0 0 text) fun found entry reads => ?_
  obtain ⟨kind,_,reads⟩ := Option.bind_eq_some_iff.mp reads
  exact located_place reads

def rank : CronKind → Nat
  | .create => 0
  | .update => 1
  | .list => 2
  | .delete => 3

theorem kinds_sorted : kinds.Pairwise fun kind other => rank kind < rank other := by decide

-- A command that can be read stands in the body of a block exactly where its own
-- kind's search passes it, and the commands that stand in none come kind by kind.
structure Orderly (text : List Char) : Prop where
  alike : ∀ kind i, (readAt kind text i).isSome = true → (Passed kind text i ↔ Inside blockHit text i)
  ordered : ∀ kind other i j, (readAt kind text i).isSome = true → (readAt other text j).isSome = true →
    ¬Inside blockHit text i → ¬Inside blockHit text j → i < j → rank kind ≤ rank other

theorem Orderly.members (orderly : Orderly text) (entry : Located) : entry ∈ executed text ↔ entry ∈ written text := by
  rw [executed_exact,written_exact]
  refine exists_congr fun kind => and_congr_right fun reads => not_congr ?_
  exact orderly.alike kind entry.1 (reads ▸ rfl)

theorem Orderly.sorted (orderly : Orderly text) : (executed text).Pairwise fun first second => first.1 < second.1 := by
  refine List.pairwise_flatMap.mpr ⟨fun kind _ => located_sorted (matched_sorted kind text) fun _ _ => located_place,?_⟩
  refine kinds_sorted.imp fun below first here second there => ?_
  obtain ⟨reads,free⟩ := kind_exact.mp here
  obtain ⟨reads',free'⟩ := kind_exact.mp there
  rcases Nat.lt_trichotomy first.1 second.1 with before | same | behind
  · exact before
  · rw [same] at reads
    rw [one_kind (readAt_hit reads) (readAt_hit reads')] at below
    exact absurd below (Nat.lt_irrefl _)
  · have outside := mt (orderly.alike _ _ (reads ▸ rfl)).mpr free
    have outside' := mt (orderly.alike _ _ (reads' ▸ rfl)).mpr free'
    exact absurd below (Nat.not_lt.mpr (orderly.ordered _ _ _ _ (reads' ▸ rfl) (reads ▸ rfl) outside' outside behind))

theorem executed_written_iff (text : List Char) : executed text = written text ↔ Orderly text := by
  constructor
  · intro same
    have alike : ∀ kind i, (readAt kind text i).isSome = true → (Passed kind text i ↔ Inside blockHit text i) := by
      intro kind i reads
      obtain ⟨command,reads⟩ := Option.isSome_iff_exists.mp reads
      have each := executed_here reads
      rw [same,written_here reads] at each
      exact (not_iff_not.mp each).symm
    refine ⟨alike,fun kind other i j reads reads' outside outside' before => Nat.not_lt.mp fun below => ?_⟩
    have free := mt (alike kind i reads).mp outside
    have free' := mt (alike other j reads').mp outside'
    obtain ⟨command,reads⟩ := Option.isSome_iff_exists.mp reads
    obtain ⟨command',reads'⟩ := Option.isSome_iff_exists.mp reads'
    have sorted := written_sorted text
    rw [← same] at sorted
    have across := by_place kinds_sorted (List.pairwise_flatMap.mp sorted).2 (every_kind other) (every_kind kind) below
    have behind := across (j,command') (kind_exact.mpr ⟨reads',free'⟩) (i,command) (kind_exact.mpr ⟨reads,free⟩)
    exact Nat.lt_asymm before behind
  · intro orderly
    exact sorted_same orderly.sorted (written_sorted text) orderly.members

end Order

-- The service's calls are those for the executed commands, and these are the
-- written ones exactly in orderly texts.
theorem commands_executed_iff {σ : Type} (service : CronService σ) (message userId conversationId : List Char) (state : σ) :
    ((process (some service) message userId conversationId state).1.systemResponses,
      (process (some service) message userId conversationId state).2) =
      service.performAll userId conversationId ((executed (stripThinkTags message)).map Prod.snd) [] state ∧
    (executed (stripThinkTags message) = written (stripThinkTags message) ↔ Orderly (stripThinkTags message)) :=
  ⟨process_executed service message userId conversationId state,executed_written_iff _⟩

section Examples

-- A service that keeps the ids it was asked to delete.
def recorder : CronService (List (List Char)) where
  createJob _ _ _ deleted := (⟨true,[]⟩,deleted)
  updateJob _ _ _ deleted := (⟨true,[]⟩,deleted)
  listJobs _ _ deleted := (⟨true,[]⟩,deleted)
  deleteJob _ id deleted := (⟨true,[]⟩,deleted ++ [id])

def nested : List Char := "[CRON_CREATE]\nschedule: *\nmessage: Say [CRON_DELETE: job-1]\n[/CRON_CREATE]".toList

def inverted : List Char := "[CRON_DELETE: old][CRON_CREATE]schedule: *[/CRON_CREATE]".toList

-- The message of a new job deletes another one; and a job is created before the
-- one in front of it is deleted.
theorem message_executed :
    (written (stripThinkTags nested)).map Prod.snd = [.create ⟨[],['*'],[],"Say [CRON_DELETE: job-1]".toList⟩] ∧
    (process (some recorder) nested [] [] []).2 = ["job-1".toList] ∧
    (executed inverted).map Prod.fst = [18,0] ∧ (written inverted).map Prod.fst = [0,18] := by
  decide +kernel

end Examples

end AlineaCopilot.CronExtraction

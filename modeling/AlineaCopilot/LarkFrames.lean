import AlineaCopilot.ChannelIntake
import AlineaCopilot.Reassembly
open AlineaCopilot.ChannelIntake AlineaCopilot.ChannelMessages AlineaCopilot.ChannelPlatforms AlineaCopilot.KeyedMaps AlineaCopilot.Reassembly AlineaCopilot.RustPanics AlineaCopilot.RustText

namespace AlineaCopilot.LarkFrames

section Listening

inductive Arrival where
  | frame (now : Int64) (instant : Instant) (data : List UInt8)
  -- The deadline of the ping, at which old fragments are dropped.
  | ping (instant : Instant)
  -- The sweep over the event ids is a task beside the connection.
  | sweep (instant : Instant)

def Arrival.instant : Arrival → Instant
  | .frame _ instant _ | .ping instant | .sweep instant => instant

def cleanupExpiredEvents (dedup : KeyedMap String Instant) (instant : Instant) : KeyedMap String Instant :=
  keep (fun since => decide (instant - since < 300 * 10 ^ 9)) dedup

-- What goes to the message channel, each message beside the id of its last frame.
abbrev Log := List (String × UnifiedIncomingMessage)

variable (decoders : Decoders)

def logOf (data : List UInt8) (handled : Handled) : Log :=
  match decoders.pbFrame data,handled.message with
  | some frame,some message => [(frame.messageId,message)]
  | _,_ => []

def step (s : LarkSession) : Arrival → Checked (LarkSession × Log)
  | .frame now instant data =>
    (handleBinary decoders now s instant data).bind fun r => pure (r.1,logOf decoders data r.2.2)
  | .ping instant => pure ({ s with fragmentCache := s.fragmentCache.cleanup instant 300 },[])
  | .sweep instant => pure ({ s with dedupCache := cleanupExpiredEvents s.dedupCache instant },[])

def run (start : LarkSession) : List Arrival → Checked (LarkSession × Log)
  | [] => pure (start,[])
  | arrival :: rest => (step decoders start arrival).bind fun first => (run first.1 rest).bind fun later => pure (later.1,first.2 ++ later.2)

end Listening

section Messages

-- An event or a card action, cut into fragments.
structure LarkMessage where
  id : String
  card : Bool
  parts : List (List UInt8)
  some_ : 0 < parts.length
  fits : parts.length * fragmentSize ≤ isizeMax

variable (decoders : Decoders)

namespace LarkMessage

def msgType (m : LarkMessage) : String := if m.card then "card" else "event"

def text (m : LarkMessage) : Option String := fromUtf8 m.parts.flatten

-- What the whole text of a message leads to.
def message (m : LarkMessage) (now : Int64) : Option UnifiedIncomingMessage :=
  m.text.bind fun text =>
    match handleWsText decoders now ∅ 0 text m.msgType with
    | .ok r => r.2.message
    | .error _ => none

def eventId (m : LarkMessage) : Option String :=
  if m.card then none else (m.text.bind decoders.value).bind (·.header "event_id")

end LarkMessage

-- A data frame that holds one fragment of a message.
def Carries (m : LarkMessage) (data : List UInt8) : Prop :=
  ∃ frame, decoders.pbFrame data = some frame ∧ frame.method = 1 ∧ frame.messageId = m.id ∧ frame.msgType = m.msgType ∧
    frame.sum.toNat = m.parts.length ∧ m.parts[frame.seq.toNat]? = some frame.payload

-- The number of the fragment, when an arrival is a frame of this message.
def seqOf (m : LarkMessage) : Arrival → Option Nat
  | .frame _ _ data => (decoders.pbFrame data).bind fun frame => if frame.messageId = m.id then some frame.seq.toNat else none
  | _ => none

def seqs (m : LarkMessage) (arrivals : List Arrival) : List Nat := arrivals.filterMap (seqOf decoders m)

-- Distinct messages, every fragment of which arrives at least once, in any order
-- and among those of the others; frames of one message less than the time to live
-- of an event id apart.
structure Delivered (messages : List LarkMessage) (arrivals : List Arrival) : Prop where
  distinct : ∀ m ∈ messages, ∀ other ∈ messages, m.id = other.id → m = other
  events : ∀ m ∈ messages, ∀ other ∈ messages, ∀ eid, m.eventId decoders = some eid → other.eventId decoders = some eid → m = other
  leads : ∀ m ∈ messages, ∀ now, (m.message decoders now).isSome = true
  framed : ∀ now instant data, .frame now instant data ∈ arrivals → ∃ m ∈ messages, Carries decoders m data
  all : ∀ m ∈ messages, ∀ i < m.parts.length, i ∈ seqs decoders m arrivals
  ordered : arrivals.Pairwise fun a b => a.instant ≤ b.instant
  within : ∀ m ∈ messages, ∀ a ∈ arrivals, ∀ b ∈ arrivals, (seqOf decoders m a).isSome = true → (seqOf decoders m b).isSome = true →
    b.instant - a.instant < 300 * 10 ^ 9

-- The message went to the channel once, as its text says, and from its last frame on
-- nothing of it is in the cache.
structure HandedOnce (start : LarkSession) (arrivals : List Arrival) (m : LarkMessage) : Prop where
  once : ∃ final log now message, run decoders start arrivals = .ok (final,log) ∧ m.message decoders now = some message ∧
    log.filter (·.1 = m.id) = [(m.id,message)]
  clean : ∀ before after, arrivals = before ++ after → seqs decoders m after = [] →
    ∃ s log, run decoders start before = .ok (s,log) ∧ s.fragmentCache.lookup m.id = none

-- A message with an event id may come again as often as it is whole again; any other
-- ends with the frame that completes it.
def Clean (arrivals : List Arrival) (m : LarkMessage) : Prop :=
  if (m.eventId decoders).isSome then ∃ k, Rounds m.parts.length k (seqs decoders m arrivals)
  else Round m.parts.length (seqs decoders m arrivals)

end Messages

section Fragments
variable {parts : List (List UInt8)} {pending : List Nat}

def slots (parts : List (List UInt8)) (pending : List Nat) : List (Option (List UInt8)) :=
  parts.mapIdx fun i part => if i ∈ pending then some part else none

theorem slots_length : (slots parts pending).length = parts.length := List.length_mapIdx

theorem slots_getElem (i : Nat) : (slots parts pending)[i]? = parts[i]?.map fun part => if i ∈ pending then some part else none :=
  List.getElem?_mapIdx

theorem slots_nil : slots parts [] = List.replicate parts.length none := by
  refine List.ext_getElem? fun i => ?_
  rw [slots_getElem,List.getElem?_replicate]
  by_cases below : i < parts.length
  · rw [List.getElem?_eq_getElem below,if_pos below]
    rfl
  · rw [List.getElem?_eq_none (Nat.le_of_not_lt below),if_neg below]
    rfl

theorem slots_set (found : parts[i]? = some part) : (slots parts pending).set i (some part) = slots parts (i :: pending) := by
  refine List.ext_getElem? fun j => ?_
  rw [slots_getElem,List.getElem?_set,slots_getElem,slots_length]
  obtain ⟨below,_⟩ := List.getElem?_eq_some_iff.mp found
  by_cases here : i = j
  · subst here
    rw [if_pos rfl,if_pos below,found,Option.map_some,if_pos List.mem_cons_self]
  · rw [if_neg here]
    simp only [List.mem_cons,Ne.symm here,false_or]

theorem slots_all : (slots parts pending).all Option.isSome = whole parts.length pending := by
  rw [Bool.eq_iff_iff,List.all_eq_true,whole_iff]
  constructor
  · intro full i below
    have there := full _ (List.mem_mapIdx.mpr ⟨i,below,rfl⟩)
    by_contra missing
    rw [if_neg missing] at there
    cases there
  · intro full slot inside
    obtain ⟨i,below,rfl⟩ := List.mem_mapIdx.mp inside
    rw [if_pos (full i below)]
    rfl

theorem slots_merged (full : whole parts.length pending = true) : (slots parts pending).filterMap (fun slot => slot) = parts := by
  have every : slots parts pending = parts.map some := by
    refine List.ext_getElem? fun i => ?_
    rw [slots_getElem,List.getElem?_map]
    by_cases below : i < parts.length
    · rw [List.getElem?_eq_getElem below,Option.map_some,Option.map_some,if_pos (whole_iff.mp full i below)]
    · rw [List.getElem?_eq_none (Nat.le_of_not_lt below)]
      rfl
  rw [every,List.filterMap_map]
  exact List.filterMap_some

end Fragments

section Pushing
variable {m : LarkMessage} {cache : FragmentCache} {pending : List Nat} {instant : Instant}

theorem put_slots {entry : FragmentEntry} {seq : UInt64} (sum : entry.sum.toNat = m.parts.length)
    (slots_ : entry.fragments = slots m.parts pending) (found : m.parts[seq.toNat]? = some payload) :
    ∃ after, entry.put seq payload = .ok after ∧ after.fragments = slots m.parts (seq.toNat :: pending) ∧ after.createdAt = entry.createdAt ∧
      after.sum = entry.sum := by
  obtain ⟨below,_⟩ := List.getElem?_eq_some_iff.mp found
  have inside : seq.toNat < entry.fragments.length := by rw [entry.sized,sum]; exact below
  have smaller : seq < entry.sum := UInt64.lt_iff_toNat_lt.mpr (by rw [sum]; exact below)
  unfold FragmentEntry.put
  rw [if_pos smaller,if_pos inside]
  exact ⟨_,rfl,(congrArg (List.set · seq.toNat (some payload)) slots_).trans (slots_set found),rfl,rfl⟩

theorem store_slots {entry : FragmentEntry} (slots_ : entry.fragments = slots m.parts pending) (id : String) :
    FragmentCache.store cache id entry = .ok
      (if whole m.parts.length pending then (cache.erase id,some m.parts.flatten) else (cache.insert id entry,none)) := by
  unfold FragmentCache.store
  rw [slots_,slots_all]
  cases full : whole m.parts.length pending with
  | false => rfl
  | true =>
    rw [if_pos rfl,if_pos rfl,mapM_unwrap (slots_all.trans full),slots_merged full]
    rfl

-- What is in the cache of a message some fragments of which have arrived.
structure Held (m : LarkMessage) (cache : FragmentCache) (pending : List Nat) (since : Instant → Prop) : Prop where
  idle : pending = [] → cache.lookup m.id = none
  partly : pending ≠ [] → ∃ entry, cache.lookup m.id = some entry ∧ entry.sum.toNat = m.parts.length ∧
    entry.fragments = slots m.parts pending ∧ since entry.createdAt

theorem Held.entry {since : Instant → Prop} {frame : PbFrame} (held : Held m cache pending since) (sum : frame.sum.toNat = m.parts.length) (now : since instant) :
    ∃ entry, cache.entry instant m.id frame.sum = .ok entry ∧ entry.sum.toNat = m.parts.length ∧
      entry.fragments = slots m.parts pending ∧ since entry.createdAt := by
  unfold FragmentCache.entry
  by_cases idle : pending = []
  · rw [held.idle idle]
    dsimp only
    unfold FragmentEntry.vacant
    rw [if_pos (by rw [sum]; exact m.fits)]
    refine ⟨_,rfl,sum,?_,now⟩
    rw [idle,slots_nil]
    exact congrArg (List.replicate · none) sum
  · obtain ⟨entry,found,rest⟩ := held.partly idle
    rw [found]
    exact ⟨entry,rfl,rest⟩

theorem Held.push {since : Instant → Prop} {frame : PbFrame} (held : Held m cache pending since) (sum : frame.sum.toNat = m.parts.length)
    (found : m.parts[frame.seq.toNat]? = some frame.payload) (now : since instant) (rounds : Nat) :
    ∃ after, cache.push instant m.id frame.sum frame.seq frame.payload =
        .ok (after,if whole m.parts.length (frame.seq.toNat :: pending) then some m.parts.flatten else none) ∧
      Held m after (arrive m.parts.length ⟨rounds,pending⟩ frame.seq.toNat).pending since ∧
      ∀ other, other ≠ m.id → after.lookup other = cache.lookup other := by
  obtain ⟨entry,got,size,slots_,since_⟩ := held.entry sum now
  obtain ⟨put,done,slots',at_,size'⟩ := put_slots size slots_ found
  have pushed : cache.push instant m.id frame.sum frame.seq frame.payload = cache.store m.id put := by
    rw [FragmentCache.push,got]
    show (entry.put frame.seq frame.payload).bind _ = _
    rw [done]
    rfl
  rw [pushed,store_slots slots' m.id]
  unfold arrive
  cases full : whole m.parts.length (frame.seq.toNat :: pending) with
  | true =>
    refine ⟨cache.erase m.id,rfl,⟨fun _ => AList.lookup_erase _ _,fun some_ => absurd rfl some_⟩,fun other apart => ?_⟩
    exact AList.lookup_erase_ne apart
  | false =>
    refine ⟨cache.insert m.id put,rfl,⟨fun none => ?_,fun _ => ?_⟩,fun other apart => AList.lookup_insert_ne apart⟩
    · cases none
    · exact ⟨put,AList.lookup_insert _,by rw [size',size],slots',by rw [at_]; exact since_⟩

end Pushing

section Dispatching
variable {decoders : Decoders} {now : Int64}

def noted (eventId : Option String) (dedup : KeyedMap String Instant) (instant : Instant) : KeyedMap String Instant :=
  match eventId with
  | some eid => dedup.insert eid instant
  | none => dedup

def duplicate (eventId : Option String) (dedup : KeyedMap String Instant) : Bool := eventId.any fun eid => (dedup.lookup eid).isSome

theorem seen_duplicate (dedup : KeyedMap String Instant) (envelope : Value) : seen dedup envelope = duplicate (envelope.header "event_id") dedup := by
  unfold seen
  cases envelope.header "event_id" <;> rfl

theorem messageEvent_ok (decoders : Decoders) (now : Int64) (data : Value) : ∃ message, handleMessageEvent decoders now data = .ok message := by
  unfold handleMessageEvent
  cases decoders.messageEvent data with
  | none => exact ⟨_,rfl⟩
  | some evt =>
    obtain ⟨timestamp,divided⟩ := returns_seconds now (evt.createTime.bind parseI64)
    simp only [divided]
    exact ⟨_,rfl⟩

theorem cardAction_ok (decoders : Decoders) (now : Int64) (data : Value) : ∃ handled, handleLarkCardAction decoders now data = .ok handled := by
  unfold handleLarkCardAction
  cases decoders.cardActionEvent data with
  | none => exact ⟨_,rfl⟩
  | some evt =>
    obtain ⟨parsed,read,_⟩ := parseCallback_exact evt.actionStr
    simp only [read]
    exact ⟨_,rfl⟩

-- Whether an event is passed over depends on the ids seen before, what it leads to
-- does not.
theorem event_uniform (read : decoders.value text = some envelope) : ∃ handled, ∀ dedup instant,
    handleWsText decoders now dedup instant text "event" =
      .ok (if duplicate (envelope.header "event_id") dedup then (dedup,nothing) else (noted (envelope.header "event_id") dedup instant,handled)) := by
  unfold handleWsText
  simp only [read]
  cases envelope.get "event" with
  | none =>
    refine ⟨nothing,fun dedup instant => ?_⟩
    rw [seen_duplicate]
    split <;> rfl
  | some data =>
    dsimp only
    obtain ⟨message,done⟩ := messageEvent_ok decoders now data
    by_cases received : (envelope.header "event_type").getD "" = "im.message.receive_v1"
    · refine ⟨⟨none,message⟩,fun dedup instant => ?_⟩
      rw [seen_duplicate,if_pos received,done]
      split <;> rfl
    · by_cases menu : (envelope.header "event_type").getD "" = "application.bot.menu_v6"
      · refine ⟨⟨none,handleBotMenuEvent decoders now data⟩,fun dedup instant => ?_⟩
        rw [seen_duplicate,if_neg received,if_pos menu]
        split <;> rfl
      · refine ⟨nothing,fun dedup instant => ?_⟩
        rw [seen_duplicate,if_neg received,if_neg menu]
        split <;> rfl

theorem text_handled (decoders : Decoders) (now : Int64) {m : LarkMessage} (given : m.text = some text) : ∃ handled, handled.message = m.message decoders now ∧ ∀ dedup instant,
    handleWsText decoders now dedup instant text m.msgType =
      .ok (if duplicate (m.eventId decoders) dedup then (dedup,nothing) else (noted (m.eventId decoders) dedup instant,handled)) := by
  suffices ∃ handled, ∀ dedup instant, handleWsText decoders now dedup instant text m.msgType =
      .ok (if duplicate (m.eventId decoders) dedup then (dedup,nothing) else (noted (m.eventId decoders) dedup instant,handled)) by
    obtain ⟨handled,handles⟩ := this
    refine ⟨handled,?_,handles⟩
    have fresh : duplicate (m.eventId decoders) ∅ = false := by
      cases m.eventId decoders <;> rfl
    rw [LarkMessage.message,given,Option.bind_some,handles,fresh]
    rfl
  unfold LarkMessage.msgType LarkMessage.eventId
  cases m.card with
  | true =>
    rw [if_pos rfl,if_pos rfl]
    cases read : decoders.value text with
    | none => exact ⟨nothing,fun dedup instant => by simp only [handleWsText,read]; rfl⟩
    | some data =>
      obtain ⟨handled,done⟩ := cardAction_ok decoders now data
      exact ⟨handled,fun dedup instant => by simp only [handleWsText,read,done]; rfl⟩
  | false =>
    rw [if_neg Bool.false_ne_true,if_neg Bool.false_ne_true,given,Option.bind_some]
    cases read : decoders.value text with
    | none => exact ⟨nothing,fun dedup instant => by simp only [handleWsText,read]; rfl⟩
    | some envelope => exact event_uniform read

-- One frame of a message: its text is handled when nothing of it is missing any more.
theorem own_step (now : Int64) {m : LarkMessage} {s : LarkSession} {pending : List Nat} {since : Instant → Prop} {frame : PbFrame}
    (read : decoders.pbFrame data = some frame) (method : frame.method = 1) (named : frame.messageId = m.id) (typed : frame.msgType = m.msgType)
    (sum : frame.sum.toNat = m.parts.length) (found : m.parts[frame.seq.toNat]? = some frame.payload) (given : m.text = some text)
    (held : Held m s.fragmentCache pending since) (at_ : since instant) (rounds : Nat) :
    ∃ after log, step decoders s (.frame now instant data) = .ok (after,log) ∧
      Held m after.fragmentCache (arrive m.parts.length ⟨rounds,pending⟩ frame.seq.toNat).pending since ∧
      (∀ other, other ≠ m.id → after.fragmentCache.lookup other = s.fragmentCache.lookup other) ∧
      let completes := whole m.parts.length (frame.seq.toNat :: pending) && !duplicate (m.eventId decoders) s.dedupCache
      after.dedupCache = (if completes then noted (m.eventId decoders) s.dedupCache instant else s.dedupCache) ∧
        log = if completes then ((m.message decoders now).map fun message => (m.id,message)).toList else [] := by
  obtain ⟨cache,pushed,held',rest⟩ := held.push sum found at_ rounds
  obtain ⟨handled,leads,handles⟩ := text_handled decoders now given
  have one : ¬frame.method = 0 := by rw [method]; decide
  have stepped : step decoders s (.frame now instant data) =
      ((handleMerged decoders now { s with fragmentCache := cache } instant m.msgType
        (if whole m.parts.length (frame.seq.toNat :: pending) then some m.parts.flatten else none)).bind fun r =>
          pure (r.1,logOf decoders data r.2)) := by
    unfold step handleBinary
    simp only [read]
    rw [if_neg one,if_pos method,handleDataFrame,named,pushed,typed]
    show ((handleMerged _ _ _ _ _ _).bind _).bind _ = _
    rcases handleMerged decoders now { s with fragmentCache := cache } instant m.msgType
      (if whole m.parts.length (frame.seq.toNat :: pending) then some m.parts.flatten else none) with _ | _ <;> rfl
  have kind : m.msgType = "event" ∨ m.msgType = "card" := by
    unfold LarkMessage.msgType
    cases m.card
    · exact .inl rfl
    · exact .inr rfl
  have logged : ∀ handled : Handled, logOf decoders data handled = (handled.message.map fun message => (m.id,message)).toList := by
    intro handled
    unfold logOf
    rw [read]
    cases handled.message with
    | none => rfl
    | some message => rw [← named]; rfl
  rw [stepped]
  cases full : whole m.parts.length (frame.seq.toNat :: pending) with
  | false => exact ⟨_,_,rfl,held',rest,rfl,by rw [logged]; rfl⟩
  | true =>
    rw [if_pos rfl,handleMerged,Option.bind_some,show fromUtf8 m.parts.flatten = some text from given]
    dsimp only
    rw [if_pos kind,handles]
    cases again : duplicate (m.eventId decoders) s.dedupCache with
    | true => exact ⟨_,_,rfl,held',rest,rfl,by rw [logged]; rfl⟩
    | false => exact ⟨_,_,rfl,held',rest,rfl,by rw [← leads]; exact logged handled⟩

end Dispatching

end AlineaCopilot.LarkFrames

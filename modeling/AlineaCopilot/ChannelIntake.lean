import AlineaCopilot.ChannelPlatforms
open AlineaCopilot.ChannelMessages AlineaCopilot.ChannelPlatforms AlineaCopilot.ChannelRelays AlineaCopilot.KeyedMaps AlineaCopilot.RustPanics
open AlineaCopilot.RustText

namespace AlineaCopilot.ChannelIntake

-- What the receive loops of the four platforms keep from one delivery to the next.
structure Loops where
  lark : LarkSession
  offset : Option Int64
  weixin : WeixinSession

inductive Inbound where
  | dingtalk (text : String)
  | lark (data : List UInt8)
  -- The deadline of the next ping has come; a pong may have set how often.
  | larkDeadline
  | telegram (update : TgUpdate)
  | weixinResponse (ret errcode : Option Int32) (buf : Option String)
  | weixin (msg : WeixinRawMessage)

structure Moment where
  clock : Clock
  now : Int64
  instant : Instant

structure Received where
  loops : Loops
  ack : Option StreamAck
  frame : Option PbFrame
  confirm : Option (String × String)
  delivery : Option Delivery

section Receiving
variable (decoders : Decoders) (answers : Answers) (moment : Moment)

def pipeline (handled : Handled) : Checked (Option Delivery) :=
  match handled.message with
  | some msg => (handleMessage moment.clock answers msg).bind fun delivery => pure (some delivery)
  | none => pure none

def passOn (loops : Loops) (ack : Option StreamAck) (frame : Option PbFrame) (handled : Handled) : Checked Received :=
  (pipeline answers moment handled).bind fun delivery => pure ⟨loops,ack,frame,handled.confirm,delivery⟩

-- One delivery, through its handler and the pipeline.
def receive (loops : Loops) : Inbound → Checked Received
  | .dingtalk text =>
    (handleStreamFrame decoders moment.now text).bind fun r => passOn answers moment loops r.1 none r.2
  | .lark data =>
    (handleBinary decoders moment.now loops.lark moment.instant data).bind fun r =>
      passOn answers moment { loops with lark := r.1 } none r.2.1 r.2.2
  | .larkDeadline =>
    (moment.instant.addSecs loops.lark.pingDuration).bind fun deadline =>
      let cache := loops.lark.fragmentCache.cleanup moment.instant 300
      pure ⟨{ loops with lark := { loops.lark with fragmentCache := cache, pingDeadline := deadline } },none,none,none,none⟩
  | .telegram update =>
    (handleUpdate moment.now update).bind fun r => passOn answers moment { loops with offset := some r.1 } none none r.2
  | .weixinResponse ret errcode buf =>
    (handleResponse loops.weixin ret errcode buf).bind fun s => pure ⟨{ loops with weixin := s },none,none,none,none⟩
  | .weixin msg =>
    (handleWeixinMessage moment.now loops.weixin.contextTokens msg).bind fun r =>
      passOn answers moment { loops with weixin := { loops.weixin with contextTokens := r.1 } } none none ⟨none,r.2⟩

end Receiving

section Conditions
variable (decoders : Decoders) (answers : Answers)

-- The data of a frame with no content shown in the log is cut nowhere, and a chat a
-- conversation may be named after has a name.
def DingtalkSurvives (text : String) : Prop :=
  ∀ frame, decoders.streamFrame text = some frame → frame.frameType = "CALLBACK" →
    let data := frame.data.getD ""
    (frame.topic.getD "" = "/v1.0/im/bot/messages/get" →
      (decoders.botMessage data = none → isCharBoundary data (min (byteLen data.toList) 200) = true) ∧
      ∀ cb, decoders.botMessage data = some cb → Nameable answers cb.chatId) ∧
    (frame.topic.getD "" = "/v1.0/card/instances/callback" →
      ∀ cb, decoders.cardActionCallback data = some cb → isButton (cb.actionStr decoders) = false → Nameable answers cb.chatId)

def LarkTextSurvives (dedup : KeyedMap String Instant) (frameType text : String) : Prop :=
  ∀ v, decoders.value text = some v →
    (frameType = "event" → seen dedup v = false → ∀ data, v.get "event" = some data →
      ((v.header "event_type").getD "" = "im.message.receive_v1" →
        ∀ evt, decoders.messageEvent data = some evt → Nameable answers evt.chatId) ∧
      ((v.header "event_type").getD "" = "application.bot.menu_v6" →
        ∀ evt, decoders.botMenuEvent data = some evt → Nameable answers evt.openId)) ∧
    (frameType = "card" → ∀ evt, decoders.cardActionEvent v = some evt → isButton evt.actionStr = false →
      Nameable answers (evt.openChatId.getD ""))

-- The fragments of a message once this one is among them, and the message when none
-- is missing.
def fragments (cache : FragmentCache) (frame : PbFrame) : List (Option (List UInt8)) :=
  let before := match cache.lookup frame.messageId with
    | some entry => entry.fragments
    | none => List.replicate frame.sum.toNat none
  before.set frame.seq.toNat (some frame.payload)

def assembled (fragments : List (Option (List UInt8))) : Option (List UInt8) :=
  if fragments.all Option.isSome then some (fragments.filterMap fun f => f).flatten else none

def LarkSurvives (instant : Instant) (s : LarkSession) (data : List UInt8) : Prop :=
  ∀ frame, decoders.pbFrame data = some frame →
    (frame.method = 0 → ∀ duration, handleControlFrame decoders frame = some duration → instant / 10 ^ 9 + duration.toNat < 2 ^ 63) ∧
    (frame.method = 1 →
      (s.fragmentCache.lookup frame.messageId = none → frame.sum.toNat * fragmentSize ≤ isizeMax) ∧
      ∀ text, (assembled (fragments s.fragmentCache frame)).bind fromUtf8 = some text →
        LarkTextSurvives decoders answers s.dedupCache frame.msgType text)

-- The chat of an update is a number, so its name is never cut.
def TelegramSurvives (update : TgUpdate) : Prop :=
  update.updateId.toInt + 1 < 2 ^ 63 ∧
    (update.callbackQuery = none → ∀ msg photos, update.message = some msg → msg.fromUser.isSome = true → msg.photo = some photos →
      ∀ p ∈ photos, -2 ^ 31 ≤ p.width.toInt * p.height.toInt ∧ p.width.toInt * p.height.toInt < 2 ^ 31)

def WeixinSurvives (msg : WeixinRawMessage) : Prop :=
  ∀ sender, msg.fromUserId = some sender → sender ≠ "" → (extractWeixinContent (msg.itemList.getD [])).2 ≠ "" →
    (byteLen sender.toList > 6 → isCharBoundary sender (byteLen sender.toList - 6) = true) ∧ Nameable answers sender

def Survives (moment : Moment) (loops : Loops) : Inbound → Prop
  | .dingtalk text => DingtalkSurvives decoders answers text
  | .lark data => LarkSurvives decoders answers moment.instant loops.lark data
  | .larkDeadline => moment.instant / 10 ^ 9 + loops.lark.pingDuration.toNat < 2 ^ 63
  | .telegram update => TelegramSurvives update
  | .weixinResponse _ _ _ => True
  | .weixin msg => WeixinSurvives answers msg

end Conditions

section Passing
variable {decoders : Decoders} {answers : Answers} {moment : Moment} {now : Int64} {x : Checked α} {handled : β → Handled}

-- The message a handler passes on makes it through the pipeline.
def Carried (answers : Answers) (handled : Handled) : Prop :=
  ∀ msg, handled.message = some msg → msg.action = none → Nameable answers msg.chatId

theorem carried_nothing : Carried answers nothing := by
  intro msg passed
  cases passed

theorem returns_passOn {loops : Loops} {ack : Option StreamAck} {frame : Option PbFrame} {handled : Handled} :
    Returns (passOn answers moment loops ack frame handled) ↔ Carried answers handled := by
  unfold passOn
  refine returns_bind_pure.trans ?_
  unfold pipeline Carried
  cases handled.message with
  | none =>
    refine iff_of_true returns_pure fun msg passed => ?_
    cases passed
  | some msg =>
    refine returns_bind_pure.trans (returns_handleMessage.trans ?_)
    exact ⟨fun nameable other same => by cases same; exact nameable,fun all => all msg rfl⟩

-- A handler comes back, and the message it makes is carried.
def Delivers (answers : Answers) (x : Checked β) (handled : β → Handled) : Prop := ∃ v, x = .ok v ∧ Carried answers (handled v)

theorem returns_received {x : Checked β} {loops : β → Loops} {ack : β → Option StreamAck} {frame : β → Option PbFrame} :
    Returns (x.bind fun v => passOn answers moment (loops v) (ack v) (frame v) (handled v)) ↔ Delivers answers x handled :=
  returns_bind.trans (exists_congr fun _ => and_congr_right fun _ => returns_passOn)

theorem delivers_pure {v : β} : Delivers answers (pure v) handled ↔ Carried answers (handled v) :=
  ⟨fun ⟨w,same,carried⟩ => by cases same; exact carried,fun carried => ⟨v,rfl,carried⟩⟩

theorem delivers_bind {f : α → Checked β} : Delivers answers (x.bind f) handled ↔ ∃ v, x = .ok v ∧ Delivers answers (f v) handled := by
  cases x with
  | ok v => exact ⟨fun delivers => ⟨v,rfl,delivers⟩,fun ⟨w,same,delivers⟩ => by cases same; exact delivers⟩
  | error p =>
    constructor
    · intro ⟨_,same,_⟩
      cases same
    · intro ⟨_,same,_⟩
      cases same

theorem delivers_map {f : α → β} : Delivers answers (x.bind fun v => pure (f v)) handled ↔ Delivers answers x (fun v => handled (f v)) :=
  delivers_bind.trans (exists_congr fun _ => and_congr_right fun _ => delivers_pure)

theorem delivers_nothing {v : β} {p : Prop} (empty : handled v = nothing) (holds : p) : Delivers answers (pure v) handled ↔ p :=
  iff_of_true (delivers_pure.mpr (empty ▸ carried_nothing)) holds

theorem some_only {p : γ → Prop} {v : γ} : (∀ w, some v = some w → p w) ↔ p v :=
  ⟨fun all => all v rfl,fun holds w same => by cases same; exact holds⟩

theorem none_only {p : γ → Prop} : ∀ w, none = some w → p w := by
  intro w same
  cases same

theorem carried_some {confirm : Option (String × String)} {msg : UnifiedIncomingMessage} :
    Carried answers ⟨confirm,some msg⟩ ↔ (msg.action = none → Nameable answers msg.chatId) := some_only

theorem returns_div_thousand (ms : Int64) : Returns (divI64 ms 1000) := by
  unfold divI64
  rw [if_neg]
  · exact returns_ok
  · rintro (zero | ⟨_,minus⟩)
    · exact absurd zero (by decide)
    · exact absurd minus (by decide)

theorem returns_seconds (now : Int64) (ms : Option Int64) : Returns (seconds now ms) := by
  cases ms with
  | some ms => exact returns_div_thousand ms
  | none => exact returns_pure

-- A button's message carries its action, any other is taken for a text.
theorem carried_button {actionStr : String} {parsed : Option (String × String × Option Params)} {msg : UnifiedIncomingMessage}
    {context : ActionContext} {confirm : Option (String × String)} (parses : parsed = none ↔ isButton actionStr = false)
    (action : msg.action = parsed.map fun (category,action,params) => ⟨action,categoryOf category,params,context⟩) :
    Carried answers ⟨confirm,some msg⟩ ↔ (isButton actionStr = false → Nameable answers msg.chatId) := by
  rw [carried_some,action,Option.map_eq_none_iff,parses]

end Passing

section Dingtalk
variable {decoders : Decoders} {answers : Answers} {moment : Moment} {now : Int64}

theorem delivers_handleBotMessage {data : String} : Delivers answers (handleBotMessage decoders now data) (⟨none,·⟩) ↔
    (decoders.botMessage data = none → isCharBoundary data (min (byteLen data.toList) 200) = true) ∧
      ∀ cb, decoders.botMessage data = some cb → Nameable answers cb.chatId := by
  unfold handleBotMessage
  cases decoders.botMessage data with
  | none =>
    rw [and_iff_left none_only,forall_prop_of_true rfl,← returns_sliceTo]
    constructor
    · intro ⟨message,shown,_⟩
      obtain ⟨first,cut,_⟩ := returns_bind.mp ⟨message,shown⟩
      exact ⟨first,cut⟩
    · intro ⟨first,cut⟩
      refine ⟨none,?_,carried_nothing⟩
      rw [cut]
      rfl
  | some cb =>
    obtain ⟨timestamp,divided⟩ := returns_seconds now cb.createAt
    simp only [divided]
    refine Iff.trans (delivers_pure (v := some _)) ?_
    rw [carried_some,some_only,and_iff_right (fun missing => by cases missing)]
    exact forall_prop_of_true rfl

theorem delivers_handleDingtalkCardAction {data : String} : Delivers answers (handleDingtalkCardAction decoders now data) id ↔
    ∀ cb, decoders.cardActionCallback data = some cb → isButton (cb.actionStr decoders) = false → Nameable answers cb.chatId := by
  unfold handleDingtalkCardAction
  cases decoders.cardActionCallback data with
  | none => exact delivers_nothing rfl none_only
  | some cb =>
    obtain ⟨parsed,read,parses⟩ := parseCallback_exact (cb.actionStr decoders)
    simp only [read]
    rw [some_only]
    exact delivers_pure.trans (carried_button parses rfl)

theorem delivers_handleCallback {topic data : String} : Delivers answers (handleCallback decoders now topic data) id ↔
    (topic = "/v1.0/im/bot/messages/get" →
      (decoders.botMessage data = none → isCharBoundary data (min (byteLen data.toList) 200) = true) ∧
      ∀ cb, decoders.botMessage data = some cb → Nameable answers cb.chatId) ∧
    (topic = "/v1.0/card/instances/callback" →
      ∀ cb, decoders.cardActionCallback data = some cb → isButton (cb.actionStr decoders) = false → Nameable answers cb.chatId) := by
  unfold handleCallback
  split
  · rename_i bot
    rw [forall_prop_of_true bot,and_iff_left fun card => absurd (bot.symm.trans card) (by decide)]
    exact delivers_map.trans delivers_handleBotMessage
  · rename_i bot
    rw [and_iff_right fun same => absurd same bot]
    split
    · rename_i card
      rw [forall_prop_of_true card]
      exact delivers_handleDingtalkCardAction
    · rename_i card
      exact delivers_nothing rfl fun same => absurd same card

theorem delivers_handleStreamFrame {text : String} :
    Delivers answers (handleStreamFrame decoders now text) (·.2) ↔ DingtalkSurvives decoders answers text := by
  unfold handleStreamFrame DingtalkSurvives
  cases decoders.streamFrame text with
  | none => exact delivers_nothing rfl none_only
  | some frame =>
    rw [some_only]
    simp only
    split
    · rename_i system
      have other : frame.frameType ≠ "CALLBACK" := by rw [system]; decide
      split <;> exact delivers_nothing rfl fun callback => absurd callback other
    · rename_i callback
      rw [forall_prop_of_true callback]
      exact delivers_map.trans delivers_handleCallback
    · rename_i event
      have other : frame.frameType ≠ "CALLBACK" := by rw [event]; decide
      exact delivers_nothing rfl fun callback => absurd callback other
    · rename_i _ other _
      exact delivers_nothing rfl fun callback => absurd callback other

end Dingtalk

section Lark
variable {decoders : Decoders} {answers : Answers} {now : Int64} {instant : Instant}

theorem delivers_handleMessageEvent {data : Value} : Delivers answers (handleMessageEvent decoders now data) (⟨none,·⟩) ↔
    ∀ evt, decoders.messageEvent data = some evt → Nameable answers evt.chatId := by
  unfold handleMessageEvent
  cases decoders.messageEvent data with
  | none => exact delivers_nothing rfl none_only
  | some evt =>
    obtain ⟨timestamp,divided⟩ := returns_seconds now (evt.createTime.bind parseI64)
    simp only [divided]
    rw [some_only]
    refine Iff.trans (delivers_pure (v := some _)) ?_
    rw [carried_some]
    exact forall_prop_of_true rfl

theorem carried_handleBotMenuEvent {data : Value} : Carried answers ⟨none,handleBotMenuEvent decoders now data⟩ ↔
    ∀ evt, decoders.botMenuEvent data = some evt → Nameable answers evt.openId := by
  unfold handleBotMenuEvent
  cases decoders.botMenuEvent data with
  | none => exact iff_of_true carried_nothing none_only
  | some evt =>
    rw [some_only]
    exact carried_some.trans (forall_prop_of_true rfl)

theorem delivers_handleLarkCardAction {data : Value} : Delivers answers (handleLarkCardAction decoders now data) id ↔
    ∀ evt, decoders.cardActionEvent data = some evt → isButton evt.actionStr = false → Nameable answers (evt.openChatId.getD "") := by
  unfold handleLarkCardAction
  cases decoders.cardActionEvent data with
  | none => exact delivers_nothing rfl none_only
  | some evt =>
    obtain ⟨parsed,read,parses⟩ := parseCallback_exact evt.actionStr
    simp only [read]
    rw [some_only]
    exact delivers_pure.trans (carried_button parses rfl)

theorem delivers_handleWsText {dedup : KeyedMap String Instant} {text frameType : String} :
    Delivers answers (handleWsText decoders now dedup instant text frameType) (·.2) ↔
      LarkTextSurvives decoders answers dedup frameType text := by
  unfold handleWsText LarkTextSurvives
  split
  · rw [show ("event" = "event") = True from eq_self _]
    cases decoders.value text with
    | none => exact delivers_nothing rfl none_only
    | some v =>
      rw [some_only,true_imp_iff,and_iff_left fun card => absurd card (by decide)]
      simp only
      split
      · rename_i before
        exact delivers_nothing rfl fun fresh => by cases before.symm.trans fresh
      · rename_i fresh
        rw [forall_prop_of_true (Bool.eq_false_of_not_eq_true fresh)]
        cases v.get "event" with
        | none => exact delivers_nothing rfl none_only
        | some data =>
          rw [some_only]
          simp only
          split
          · rename_i message
            rw [forall_prop_of_true message,and_iff_left fun menu => absurd (message.symm.trans menu) (by decide)]
            exact delivers_map.trans delivers_handleMessageEvent
          · rename_i message
            rw [and_iff_right fun same => absurd same message]
            split
            · rename_i menu
              rw [forall_prop_of_true menu]
              exact delivers_pure.trans carried_handleBotMenuEvent
            · rename_i menu
              exact delivers_nothing rfl fun same => absurd same menu
  · cases decoders.value text with
    | none => exact delivers_nothing rfl none_only
    | some v =>
      rw [some_only,and_iff_right fun event => absurd event (by decide),forall_prop_of_true rfl]
      exact delivers_map.trans delivers_handleLarkCardAction
  · rename_i other other'
    exact delivers_nothing rfl fun v _ => ⟨fun event => absurd event other,fun card => absurd card other'⟩

theorem mapM_unwrap {xs : List (Option α)} (full : xs.all Option.isSome = true) : xs.mapM unwrap = .ok (xs.filterMap fun x => x) := by
  induction xs with
  | nil => rfl
  | cons head rest ih =>
    obtain ⟨first,others⟩ := Bool.and_eq_true_iff.mp (List.all_cons ▸ full)
    obtain ⟨v,rfl⟩ := Option.isSome_iff_exists.mp first
    rw [List.mapM_cons,ih others]
    rfl

theorem put_exact (entry : FragmentEntry) (seq : UInt64) (data : List UInt8) :
    ∃ after, entry.put seq data = .ok after ∧ after.fragments = entry.fragments.set seq.toNat (some data) := by
  unfold FragmentEntry.put
  split
  · rename_i below
    have inside : seq.toNat < entry.fragments.length := entry.sized ▸ UInt64.lt_iff_toNat_lt.mp below
    exact ⟨_,if_pos inside,rfl⟩
  · rename_i beyond
    refine ⟨entry,rfl,(List.set_eq_of_length_le ?_).symm⟩
    rw [entry.sized]
    exact Nat.not_lt.mp fun below => beyond (UInt64.lt_iff_toNat_lt.mpr below)

theorem store_exact (cache : FragmentCache) (messageId : String) (entry : FragmentEntry) :
    ∃ stored, cache.store messageId entry = .ok stored ∧ stored.2 = assembled entry.fragments := by
  unfold FragmentCache.store assembled
  by_cases full : entry.fragments.all Option.isSome = true
  · rw [if_pos full,if_pos full,mapM_unwrap full]
    exact ⟨_,rfl,rfl⟩
  · rw [if_neg full,if_neg full]
    exact ⟨_,rfl,rfl⟩

theorem returns_entry {cache : FragmentCache} {messageId : String} {sum : UInt64} : Returns (cache.entry instant messageId sum) ↔
    (cache.lookup messageId = none → sum.toNat * fragmentSize ≤ isizeMax) := by
  unfold FragmentCache.entry
  cases cache.lookup messageId with
  | some entry => exact iff_of_true returns_pure fun missing => by cases missing
  | none =>
    rw [forall_prop_of_true rfl]
    unfold FragmentEntry.vacant
    simp only
    split
    · rename_i fits
      exact iff_of_true returns_ok fits
    · rename_i fits
      exact iff_of_false not_returns_error fits

theorem entry_fragments {cache : FragmentCache} {frame : PbFrame} {entry : FragmentEntry}
    (ok : cache.entry instant frame.messageId frame.sum = .ok entry) :
    entry.fragments.set frame.seq.toNat (some frame.payload) = fragments cache frame := by
  unfold FragmentCache.entry at ok
  unfold fragments
  cases held : cache.lookup frame.messageId with
  | some before =>
    rw [held] at ok
    cases ok
    rfl
  | none =>
    rw [held] at ok
    unfold FragmentEntry.vacant at ok
    simp only at ok
    split at ok
    · cases ok
      rfl
    · cases ok

-- A new message has to have room for its fragments; the last one to come makes the
-- message whole.
theorem push_exact (cache : FragmentCache) (frame : PbFrame) (instant : Instant) :
    (Returns (cache.push instant frame.messageId frame.sum frame.seq frame.payload) ↔
      (cache.lookup frame.messageId = none → frame.sum.toNat * fragmentSize ≤ isizeMax)) ∧
    ∀ pushed, cache.push instant frame.messageId frame.sum frame.seq frame.payload = .ok pushed →
      pushed.2 = assembled (fragments cache frame) := by
  rw [← returns_entry]
  unfold FragmentCache.push
  cases there : cache.entry instant frame.messageId frame.sum with
  | error p =>
    refine ⟨iff_of_false not_returns_error not_returns_error,fun pushed same => ?_⟩
    cases same
  | ok entry =>
    obtain ⟨after,put,set⟩ := put_exact entry frame.seq frame.payload
    obtain ⟨stored,ok,whole⟩ := store_exact cache frame.messageId after
    have pushes : (Except.ok entry : Checked FragmentEntry).bind (fun entry => (entry.put frame.seq frame.payload).bind fun entry =>
        cache.store frame.messageId entry) = .ok stored := by
      show (entry.put frame.seq frame.payload).bind _ = _
      rw [put]
      exact ok
    refine ⟨iff_of_true ⟨stored,pushes⟩ returns_ok,fun pushed same => ?_⟩
    cases pushes.symm.trans same
    rw [whole,set,entry_fragments there]

theorem delivers_handleMerged {s : LarkSession} {msgType : String} {merged : Option (List UInt8)} :
    Delivers answers (handleMerged decoders now s instant msgType merged) (·.2) ↔
      ∀ text, merged.bind fromUtf8 = some text → LarkTextSurvives decoders answers s.dedupCache msgType text := by
  unfold handleMerged
  cases merged.bind fromUtf8 with
  | none => exact delivers_nothing rfl none_only
  | some text =>
    rw [some_only]
    simp only
    split
    · exact delivers_map.trans delivers_handleWsText
    · rename_i other
      exact delivers_nothing rfl fun v _ => ⟨fun event => absurd (.inl event) other,fun card => absurd (.inr card) other⟩

theorem delivers_handleDataFrame {s : LarkSession} {frame : PbFrame} :
    Delivers answers (handleDataFrame decoders now s instant frame) (·.2) ↔
      (s.fragmentCache.lookup frame.messageId = none → frame.sum.toNat * fragmentSize ≤ isizeMax) ∧
      ∀ text, (assembled (fragments s.fragmentCache frame)).bind fromUtf8 = some text →
        LarkTextSurvives decoders answers s.dedupCache frame.msgType text := by
  obtain ⟨room,whole⟩ := push_exact s.fragmentCache frame instant
  rw [← room]
  refine delivers_bind.trans ?_
  constructor
  · intro ⟨pushed,ok,delivers⟩
    exact ⟨⟨pushed,ok⟩,whole pushed ok ▸ (delivers_handleMerged (s := { s with fragmentCache := pushed.1 })).mp delivers⟩
  · intro ⟨⟨pushed,ok⟩,survives⟩
    rw [← whole pushed ok] at survives
    exact ⟨pushed,ok,delivers_handleMerged.mpr survives⟩

theorem delivers_handleBinary {s : LarkSession} {data : List UInt8} :
    Delivers answers (handleBinary decoders now s instant data) (·.2.2) ↔ LarkSurvives decoders answers instant s data := by
  unfold handleBinary LarkSurvives
  cases decoders.pbFrame data with
  | none => exact delivers_nothing rfl none_only
  | some frame =>
    rw [some_only]
    simp only
    split
    · rename_i control
      rw [forall_prop_of_true control,and_iff_left fun data => absurd (control.symm.trans data) (by decide)]
      cases handleControlFrame decoders frame with
      | none => exact delivers_nothing rfl none_only
      | some duration =>
        rw [some_only,← returns_addSecs]
        exact delivers_map.trans (exists_congr fun _ => and_iff_left carried_nothing)
    · rename_i control
      rw [and_iff_right fun same => absurd same control]
      split
      · rename_i isData
        rw [forall_prop_of_true isData]
        exact delivers_map.trans delivers_handleDataFrame
      · rename_i isData
        exact delivers_nothing rfl fun same => absurd same isData

end Lark

section Telegram
variable {answers : Answers} {now : Int64}

theorem decimal_ascii (n : Int64) : ∀ c ∈ (decimal n).toList, c.utf8Size = 1 := by
  intro c inside
  rw [decimal,String.toList_ofList] at inside
  rcases List.mem_append.mp inside with sign | digit
  · split at sign
    · cases List.mem_singleton.mp sign
      rfl
    · cases sign
  · have isDigit := Nat.isDigit_of_mem_toDigits (by decide) (by decide) digit
    rw [Char.utf8Size_eq_one_iff]
    simp only [Char.isDigit,Bool.and_eq_true,decide_eq_true_eq] at isDigit
    exact UInt32.le_trans isDigit.2 (by decide)

theorem nameable_ascii {chatId : String} (ascii : ∀ c ∈ chatId.toList, c.utf8Size = 1) : Nameable answers chatId := by
  intro _ _
  refine isCharBoundary_ascii ascii ?_
  rw [byteLen_ascii ascii]
  exact Nat.min_le_left _ _

theorem delivers_handleCallbackQuery (answers : Answers) (now : Int64) (cb : TgCallbackQuery) :
    Delivers answers (handleCallbackQuery now cb) id := by
  have read : Returns (parseCallbackData (cb.data.getD "")) := by
    unfold parseCallbackData
    refine returns_ite.mpr ⟨fun _ => returns_pure,fun long => ?_⟩
    obtain ⟨category,first⟩ := returns_index.mpr (show 0 < (splitn ':' 3 (cb.data.getD "").toList).length by omega)
    obtain ⟨action,second⟩ := returns_index.mpr (show 1 < (splitn ':' 3 (cb.data.getD "").toList).length by omega)
    rw [first]
    refine returns_bind.mpr ⟨category,rfl,returns_ite.mpr ⟨fun _ => ?_,fun _ => returns_pure⟩⟩
    rw [second]
    exact returns_bind.mpr ⟨action,rfl,returns_bind_pure.mpr (returns_thirdPart _)⟩
  obtain ⟨parsed,ok⟩ := read
  unfold handleCallbackQuery
  simp only [ok]
  exact delivers_pure.mpr (carried_some.mpr fun _ => nameable_ascii (decimal_ascii _))

theorem returns_bestPhoto {photos : List TgPhotoSize} : Returns (bestPhoto photos) ↔
    ∀ p ∈ photos, -2 ^ 31 ≤ p.width.toInt * p.height.toInt ∧ p.width.toInt * p.height.toInt < 2 ^ 31 := by
  unfold bestPhoto
  refine returns_bind_pure.trans ((returns_mapM photos).trans ?_)
  exact forall₂_congr fun p _ => returns_bind_pure.trans returns_mulI32

theorem returns_extractTelegramContent {msg : TgMessage} : Returns (extractTelegramContent msg) ↔
    ∀ photos, msg.photo = some photos →
      ∀ p ∈ photos, -2 ^ 31 ≤ p.width.toInt * p.height.toInt ∧ p.width.toInt * p.height.toInt < 2 ^ 31 := by
  unfold extractTelegramContent
  cases msg.photo with
  | some photos =>
    rw [some_only]
    exact returns_bind_pure.trans returns_bestPhoto
  | none =>
    refine iff_of_true ?_ none_only
    simp only
    split <;> exact returns_pure

theorem delivers_handleTelegramMessage {msg : TgMessage} : Delivers answers (handleTelegramMessage msg) (⟨none,·⟩) ↔
    (msg.fromUser.isSome = true → Returns (extractTelegramContent msg)) := by
  unfold handleTelegramMessage
  cases msg.fromUser with
  | none => exact delivers_nothing rfl fun sent => absurd sent (by decide)
  | some sender =>
    rw [forall_prop_of_true (show (some sender).isSome = true from rfl)]
    constructor
    · intro ⟨_,made,_⟩
      obtain ⟨content,read,_⟩ := returns_bind.mp ⟨_,made⟩
      exact ⟨content,read⟩
    · intro ⟨content,read⟩
      simp only [read]
      exact ⟨_,rfl,carried_some.mpr fun _ => nameable_ascii (decimal_ascii _)⟩

theorem delivers_handleUpdate {update : TgUpdate} : Delivers answers (handleUpdate now update) (·.2) ↔ TelegramSurvives update := by
  have next : Returns (addI64 update.updateId 1) ↔ update.updateId.toInt + 1 < 2 ^ 63 := by
    have low := update.updateId.le_toInt
    have one : (1 : Int64).toInt = 1 := rfl
    rw [returns_addI64,one]
    omega
  unfold TelegramSurvives
  rw [← next]
  unfold handleUpdate
  cases added : addI64 update.updateId 1 with
  | error p =>
    refine iff_of_false ?_ fun survives => absurd survives.1 not_returns_error
    intro ⟨_,same,_⟩
    cases same
  | ok offset =>
    rw [and_iff_right returns_ok]
    cases query : update.callbackQuery with
    | some cb =>
      refine iff_of_true ?_ fun missing => (by cases missing)
      exact delivers_map.mpr (delivers_handleCallbackQuery answers now cb)
    | none =>
      rw [forall_prop_of_true rfl]
      cases update.message with
      | none => exact delivers_nothing rfl fun msg photos missing => (by cases missing)
      | some msg =>
        refine delivers_map.trans (delivers_handleTelegramMessage.trans ?_)
        rw [returns_extractTelegramContent]
        constructor
        · intro sized other photos same sent photo
          cases same
          exact sized sent photos photo
        · exact fun sized sent photos photo => sized msg photos rfl sent photo

end Telegram

section Weixin
variable {answers : Answers} {now : Int64}

theorem returns_handleResponse (s : WeixinSession) (ret errcode : Option Int32) (buf : Option String) :
    Returns (handleResponse s ret errcode buf) := by
  unfold handleResponse
  have few := s.few
  refine returns_ite.mpr ⟨fun _ => ?_,fun _ => returns_ok⟩
  rw [if_pos (by omega)]
  split <;> exact returns_ok

theorem returns_weixinDisplayName {sender : String} : Returns (weixinDisplayName sender) ↔
    (byteLen sender.toList > 6 → isCharBoundary sender (byteLen sender.toList - 6) = true) := by
  unfold weixinDisplayName
  rw [returns_ite,and_iff_left fun _ => returns_pure]
  refine imp_congr_right fun long => ?_
  unfold subUsize
  rw [if_pos (Nat.le_of_lt long)]
  exact returns_sliceFrom

theorem delivers_handleWeixinMessage {contextTokens : KeyedMap String String} {msg : WeixinRawMessage} :
    Delivers answers (handleWeixinMessage now contextTokens msg) (fun r => ⟨none,r.2⟩) ↔ WeixinSurvives answers msg := by
  unfold handleWeixinMessage WeixinSurvives
  cases msg.fromUserId with
  | none => exact delivers_nothing rfl none_only
  | some sender =>
    rw [some_only]
    simp only
    split
    · rename_i anonymous
      exact delivers_nothing rfl fun named => absurd anonymous named
    · rename_i named
      rw [forall_prop_of_true named]
      split
      · rename_i empty
        exact delivers_nothing rfl fun full => absurd empty full
      · rename_i full
        rw [forall_prop_of_true full,← returns_weixinDisplayName]
        refine delivers_map.trans ?_
        constructor
        · intro ⟨name,cut,carried⟩
          exact ⟨⟨name,cut⟩,carried_some.mp carried rfl⟩
        · intro ⟨⟨name,cut⟩,nameable⟩
          exact ⟨name,cut,carried_some.mpr fun _ => nameable⟩

end Weixin

theorem inbound_returns_iff (decoders : Decoders) (answers : Answers) (moment : Moment) (loops : Loops) (inbound : Inbound) :
    Returns (receive decoders answers moment loops inbound) ↔ Survives decoders answers moment loops inbound := by
  cases inbound with
  | dingtalk text => exact returns_received.trans delivers_handleStreamFrame
  | lark data => exact returns_received.trans delivers_handleBinary
  | larkDeadline => exact returns_bind_pure.trans returns_addSecs
  | telegram update => exact returns_received.trans delivers_handleUpdate
  | weixinResponse ret errcode buf =>
    exact iff_of_true (returns_bind_pure.mpr (returns_handleResponse loops.weixin ret errcode buf)) trivial
  | weixin msg => exact returns_received.trans delivers_handleWeixinMessage

-- A byte limit that falls within a character.
def unreadable : String := String.ofList (List.replicate 199 'a' ++ ['你'])

def callbackText (data : String) : String :=
  "\x7b\"type\":\"CALLBACK\",\"headers\":\x7b\"topic\":\"/v1.0/im/bot/messages/get\"\x7d,\"data\":\"" ++ data ++ "\"\x7d"

def ascii (text : String) : List UInt8 := text.toList.map fun c => UInt8.ofNat c.toNat

-- A data frame whose only header is the number of fragments, and a pong.
def manyFragments : List UInt8 := [0x20,1,0x2A,27,0x0A,3] ++ ascii "sum" ++ [0x12,20] ++ ascii "18446744073709551615"

def pongPayload : List UInt8 :=
  ascii "\x7b\"PingInterval\":18446744073709551615,\"ReconnectCount\":0,\"ReconnectInterval\":0,\"ReconnectNonce\":0\x7d"

def pong : List UInt8 := [0x2A,12,0x0A,4] ++ ascii "type" ++ [0x12,4] ++ ascii "pong" ++ [0x42,97] ++ pongPayload

-- What is read of the one callback below and of one of the two frames.
def reading (data : String) (frame : PbFrame) : Decoders where
  streamFrame _ := some ⟨"CALLBACK",none,some "/v1.0/im/bot/messages/get",some data⟩
  botMessage _ := none
  cardActionCallback _ := none
  value _ := none
  pbFrame _ := some frame
  pingInterval _ := some 18446744073709551615
  messageEvent _ := none
  cardActionEvent _ := none
  botMenuEvent _ := none
  textContent _ := none
  imageContent _ := none
  fileContent _ := none
  audioContent _ := none

def readFragments : PbFrame := ⟨0,0,0,1,[("sum","18446744073709551615")],[],""⟩

def readPong : PbFrame := ⟨0,0,0,0,[("type","pong")],pongPayload,""⟩

def firstSession : AssistantSessionRow := ⟨⟨"01890a5d-ac96-774b-bcce-b302099a8057",by simp [Char.utf8Size],by simp⟩,"acp",none,0,0⟩

def paired : Answers :=
  ⟨.ok (some "u1"),.ok (),.ok 0,.ok (),.ok true,.ok ⟨"acp",none⟩,.ok (),.ok firstSession,.ok (),.ok (some firstSession),.ok ⟨"acp",none⟩,
    .ok (),.ok "c1",.ok ()⟩

theorem none_failed : (0 : UInt32).toNat < 3 := by decide

def atStart : Loops := ⟨⟨∅,∅,120,0⟩,none,⟨"",0,∅,none_failed⟩⟩

def moment : Moment := ⟨⟨0,by decide⟩,0,10 ^ 9⟩

def photoMessage : TgMessage :=
  ⟨1,some ⟨7,"Ada",none,none⟩,7,0,none,none,some [⟨"f",65536,65536,none⟩],none,none,none,none,none,none⟩

def textFrom (sender : String) : WeixinRawMessage := ⟨some sender,none,none,some [⟨some 1,some (some "hi"),none⟩]⟩

theorem callback_panics {data text : String} {frame : PbFrame} (cut : sliceTo data (min (byteLen data.toList) 200) = .error .slice) :
    receive (reading data frame) paired moment atStart (.dingtalk text) = .error .slice := by
  show Except.bind (Except.bind (Except.bind (Except.bind (sliceTo data (min (byteLen data.toList) 200)) _) _) _) _ = _
  rw [cut]
  rfl

theorem long_cut {text : String} {n : Nat} (whole : text.toList = List.replicate n 'a' ++ ['你']) :
    sliceTo text (min (byteLen text.toList) (n + 1)) = .error .slice := by
  have wide : '你'.utf8Size = 3 := rfl
  have last : byteLen ['你'] = 3 := rfl
  have first : byteLen (List.replicate n 'a') = n := byteLen_replicate rfl n
  refine sliceTo_within whole ?_ ?_
  all_goals
    rw [whole,byteLen_append,first,last]
    omega

theorem inbound_panics :
    receive (reading unreadable readFragments) paired moment atStart (.dingtalk (callbackText unreadable)) = .error .slice ∧
    receive (reading unreadable readFragments) paired moment atStart (.lark manyFragments) = .error .capacity ∧
    receive (reading unreadable readPong) paired moment atStart (.lark pong) = .error .arithmetic ∧
    receive (reading unreadable readPong) paired moment atStart (.telegram ⟨9223372036854775807,none,none⟩) = .error .arithmetic ∧
    receive (reading unreadable readPong) paired moment atStart (.telegram ⟨1,some photoMessage,none⟩) = .error .arithmetic ∧
    receive (reading unreadable readPong) paired moment atStart (.weixin (textFrom "你好a")) = .error .slice ∧
    receive (reading unreadable readPong) paired moment atStart (.weixin (textFrom "你好你好")) = .error .slice :=
  ⟨callback_panics (long_cut (n := 199) String.toList_ofList),rfl,rfl,rfl,rfl,rfl,rfl⟩

end AlineaCopilot.ChannelIntake

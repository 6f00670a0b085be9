import Mathlib.Data.Prod.Lex
import Mathlib.Data.String.Basic
import AlineaCopilot.MessageTable
import AlineaCopilot.OffsetPages

open AlineaCopilot.MessageTable AlineaCopilot.OffsetPages

namespace AlineaCopilot.MessagePages

inductive SortOrder where
  | asc
  | desc
deriving DecidableEq

structure ConversationRow where
  id : String
  userId : String
  name : String
  type : String
  extra : String
  model : Option String
  status : Option String
  source : Option String
  channelChatId : Option String
  pinned : Bool
  pinnedAt : Option Int
  createdAt : Int
  updatedAt : Int
deriving DecidableEq

structure MessageSearchRow where
  messageId : String
  type : String
  content : String
  createdAt : Int
  conversation : ConversationRow
deriving DecidableEq

-- The two tables. Their ids are primary keys.
structure Store where
  messages : List (MessageRow String)
  conversations : List ConversationRow
  distinct : (messages.map MessageRow.id).Nodup

structure PaginatedResult (α : Type) where
  items : List α
  total : Nat
  hasMore : Bool
deriving DecidableEq

section Numbers

def effectivePage (page : UInt32) : UInt32 := if page = 0 then 1 else page

def effectiveSize (standard pageSize : UInt32) : UInt32 := if pageSize = 0 then standard else pageSize

-- A release build: what does not fit into 32 bits wraps around.
def pageOffset (standard page pageSize : UInt32) : UInt32 := (effectivePage page - 1) * effectiveSize standard pageSize

def fetchLimit (standard pageSize : UInt32) : UInt32 := effectiveSize standard pageSize + 1

def fetched {α : Type} (standard page pageSize : UInt32) (rows : List α) : List α :=
  limited rows (fetchLimit standard pageSize).toNat (pageOffset standard page pageSize).toNat

end Numbers

section Repository
variable (store : Store)

def Store.ofConversation (convId : String) : List (MessageRow String) :=
  store.messages.filter fun row => row.conversationId = convId && row.type ∉ ["cron_trigger","skill_suggest"]

-- `ORDER BY created_at .., id ..`.
def timeAndId (row : MessageRow String) : Int ×ₗ String := toLex (row.createdAt,row.id)

-- An answer by rising keys is one by falling keys read backwards.
def SortOrder.read {α : Type} (order : SortOrder) (rows : List α) : List α :=
  match order with
  | .asc => rows.reverse
  | .desc => rows

-- `answer` is how the database arranges the rows of this query.
def Store.getMessages (convId : String) (page pageSize : UInt32) (order : SortOrder)
    (answer : Arrangement timeAndId (store.ofConversation convId)) : PaginatedResult (MessageRow String) :=
  let rows := fetched 50 page pageSize (order.read answer.list)
  let hasMore : Bool := effectiveSize 50 pageSize < UInt32.ofNat rows.length
  ⟨if hasMore then rows.dropLast else rows,(store.ofConversation convId).length,hasMore⟩

def Store.conversationOf (row : MessageRow String) : Option ConversationRow :=
  store.conversations.find? fun conversation => conversation.id = row.conversationId

-- The join with the conversations of the user. `like` is the `LIKE` of the
-- database.
def Store.found (like : String → String → Bool) (userId keyword : String) (row : MessageRow String) : Option MessageSearchRow :=
  (store.conversationOf row).bind fun conversation =>
    if conversation.userId = userId && like ("%" ++ keyword ++ "%") row.content then
      some ⟨row.id,row.type,row.content,row.createdAt,conversation⟩
    else none

def Store.searched (like : String → String → Bool) (userId keyword : String) : List MessageSearchRow :=
  store.messages.filterMap (store.found like userId keyword)

-- `ORDER BY m.created_at DESC` and nothing more.
def Store.searchMessages (like : String → String → Bool) (userId keyword : String) (page pageSize : UInt32)
    (answer : Arrangement MessageSearchRow.createdAt (store.searched like userId keyword)) : PaginatedResult MessageSearchRow :=
  let rows := fetched 20 page pageSize answer.list
  let hasMore : Bool := effectiveSize 20 pageSize < UInt32.ofNat rows.length
  ⟨if hasMore then rows.take (effectiveSize 20 pageSize).toNat else rows,(store.searched like userId keyword).length,hasMore⟩

end Repository

-- No number of the query leaves the 32 bits.
def Fits (standard page pageSize : UInt32) : Prop :=
  ((effectivePage page).toNat - 1) * (effectiveSize standard pageSize).toNat < 2 ^ 32 ∧ (effectiveSize standard pageSize).toNat + 1 < 2 ^ 32

-- The page of a list, and whether the list goes on behind it.
def Exact {α : Type} (standard page pageSize : UInt32) (rows : List α) (result : PaginatedResult α) : Prop :=
  result.items = slice rows (effectivePage page).toNat (effectiveSize standard pageSize).toNat ∧
    (result.hasMore = true ↔ (effectivePage page).toNat * (effectiveSize standard pageSize).toNat < rows.length)

section Paging
variable {α : Type} {standard page pageSize : UInt32} {rows : List α}

theorem effectivePage_pos (page : UInt32) : 1 ≤ (effectivePage page).toNat := by
  unfold effectivePage
  split
  · exact Nat.le_refl _
  · rename_i some_
    exact Nat.one_le_iff_ne_zero.mpr fun zero => some_ (UInt32.toNat_inj.mp zero)

theorem pageOffset_fits (fits : Fits standard page pageSize) :
    (pageOffset standard page pageSize).toNat = ((effectivePage page).toNat - 1) * (effectiveSize standard pageSize).toNat := by
  have first : (1 : UInt32) ≤ effectivePage page := effectivePage_pos page
  rw [pageOffset,UInt32.toNat_mul,UInt32.toNat_sub_of_le _ _ first]
  exact Nat.mod_eq_of_lt fits.1

theorem fetchLimit_fits (fits : Fits standard page pageSize) : (fetchLimit standard pageSize).toNat = (effectiveSize standard pageSize).toNat + 1 := by
  rw [fetchLimit,UInt32.toNat_add]
  exact Nat.mod_eq_of_lt fits.2

theorem more_fits (fits : Fits standard page pageSize) :
    effectiveSize standard pageSize < UInt32.ofNat (fetched standard page pageSize rows).length ↔
      (effectiveSize standard pageSize).toNat < (fetched standard page pageSize rows).length := by
  have bound : (fetched standard page pageSize rows).length ≤ (effectiveSize standard pageSize).toNat + 1 := by
    rw [fetched,limited_length,fetchLimit_fits fits]
    exact Nat.min_le_left _ _
  rw [UInt32.lt_iff_toNat_lt,UInt32.toNat_ofNat_of_lt' (Nat.lt_of_le_of_lt bound fits.2)]

theorem fetched_fits (fits : Fits standard page pageSize) : fetched standard page pageSize rows =
    limited rows ((effectiveSize standard pageSize).toNat + 1) (((effectivePage page).toNat - 1) * (effectiveSize standard pageSize).toNat) := by
  rw [fetched,fetchLimit_fits fits,pageOffset_fits fits]

theorem next_fits (fits : Fits standard page pageSize) :
    (effectiveSize standard pageSize).toNat < (fetched standard page pageSize rows).length ↔
      (effectivePage page).toNat * (effectiveSize standard pageSize).toNat < rows.length := by
  have first := effectivePage_pos page
  have whole : (effectivePage page).toNat * (effectiveSize standard pageSize).toNat =
      ((effectivePage page).toNat - 1) * (effectiveSize standard pageSize).toNat + (effectiveSize standard pageSize).toNat := by
    rw [← Nat.succ_mul,Nat.succ_eq_add_one,Nat.sub_add_cancel first]
  rw [fetched_fits fits,more_iff,whole]

-- Where the fetch brought one row more, both ways to leave it out give the page.
theorem page_more (fits : Fits standard page pageSize)
    (more : effectiveSize standard pageSize < UInt32.ofNat (fetched standard page pageSize rows).length) :
    (fetched standard page pageSize rows).dropLast = slice rows (effectivePage page).toNat (effectiveSize standard pageSize).toNat ∧
      (fetched standard page pageSize rows).take (effectiveSize standard pageSize).toNat = (fetched standard page pageSize rows).dropLast := by
  have beyond := (more_fits fits).mp more
  have bound : (fetched standard page pageSize rows).length ≤ (effectiveSize standard pageSize).toNat + 1 := by
    rw [fetched,limited_length,fetchLimit_fits fits]
    exact Nat.min_le_left _ _
  constructor
  · rw [fetched_fits fits] at beyond ⊢
    exact limited_last beyond
  · rw [List.dropLast_eq_take]
    congr 1
    omega

theorem page_last (fits : Fits standard page pageSize)
    (last : ¬effectiveSize standard pageSize < UInt32.ofNat (fetched standard page pageSize rows).length) :
    fetched standard page pageSize rows = slice rows (effectivePage page).toNat (effectiveSize standard pageSize).toNat := by
  have end_ := (not_congr (more_fits fits)).mp last
  rw [fetched_fits fits] at end_ ⊢
  exact limited_all end_

end Paging

section Queries
variable {store : Store} {convId userId keyword : String} {page pageSize : UInt32} {order : SortOrder} {like : String → String → Bool}

theorem getMessages_exact (fits : Fits 50 page pageSize) (answer : Arrangement timeAndId (store.ofConversation convId)) :
    Exact 50 page pageSize (order.read answer.list) (store.getMessages convId page pageSize order answer) := by
  refine ⟨?_,decide_eq_true_iff.trans ((more_fits fits).trans (next_fits fits))⟩
  show (if _ then _ else _) = _
  split
  · rename_i more
    exact (page_more fits (of_decide_eq_true more)).1
  · rename_i last
    exact page_last fits fun more => last (decide_eq_true more)

theorem searchMessages_exact (fits : Fits 20 page pageSize) (answer : Arrangement MessageSearchRow.createdAt (store.searched like userId keyword)) :
    Exact 20 page pageSize answer.list (store.searchMessages like userId keyword page pageSize answer) := by
  refine ⟨?_,decide_eq_true_iff.trans ((more_fits fits).trans (next_fits fits))⟩
  show (if _ then _ else _) = _
  split
  · rename_i more
    obtain ⟨dropped,taken⟩ := page_more fits (of_decide_eq_true more)
    exact taken.trans dropped
  · rename_i last
    exact page_last fits fun more => last (decide_eq_true more)

-- The id makes the order of a conversation's messages a total one.
theorem timeAndId_alone (store : Store) (convId : String) : ∀ row ∈ store.ofConversation convId, ∀ other ∈ store.ofConversation convId,
    timeAndId other = timeAndId row → other = row := by
  intro row member other member' same
  have ids : other.id = row.id := congrArg (fun key => (ofLex key).2) same
  exact List.inj_on_of_nodup_map store.distinct (List.mem_filter.mp member').1 (List.mem_filter.mp member).1 ids

theorem found_id {row : MessageRow String} {item : MessageSearchRow} (found : store.found like userId keyword row = some item) : item.messageId = row.id := by
  obtain ⟨conversation,-,kept⟩ := Option.bind_eq_some_iff.mp found
  split at kept
  · cases kept
    rfl
  · cases kept

theorem searched_alone (first : item ∈ store.searched like userId keyword) (second : other ∈ store.searched like userId keyword)
    (same : other.messageId = item.messageId) : other = item := by
  obtain ⟨row,member,found⟩ := List.mem_filterMap.mp first
  obtain ⟨row',member',found'⟩ := List.mem_filterMap.mp second
  rw [found_id found,found_id found'] at same
  cases List.inj_on_of_nodup_map store.distinct member' member same
  exact Option.some.inj (found'.symm.trans found)

theorem searched_nodup (store : Store) (like : String → String → Bool) (userId keyword : String) : (store.searched like userId keyword).Nodup := by
  refine List.Pairwise.filterMap _ (fun row other differ item found item' found' same => differ ?_) (List.pairwise_map.mp store.distinct)
  rw [← found_id found,← found_id found',same]

end Queries

-- One order of the rows, whatever the database answers.
def messageOrder (store : Store) (convId : String) (order : SortOrder) : List (MessageRow String) :=
  order.read (Arrangement.sorted timeAndId (store.ofConversation convId)).list

def searchOrder (store : Store) (like : String → String → Bool) (userId keyword : String) : List MessageSearchRow :=
  (Arrangement.sorted MessageSearchRow.createdAt (store.searched like userId keyword)).list

-- No message of the page was created at the same time as another match.
def Untied (store : Store) (like : String → String → Bool) (userId keyword : String) (page pageSize : UInt32) : Prop :=
  ∀ item ∈ slice (searchOrder store like userId keyword) (effectivePage page).toNat (effectiveSize 20 pageSize).toNat,
    ∀ other ∈ store.searched like userId keyword, other.createdAt = item.createdAt → other = item

section Results
variable {store : Store} {convId userId keyword : String} {page pageSize : UInt32} {order : SortOrder} {like : String → String → Bool}

theorem get_exact (fits : Fits 50 page pageSize) (answer : Arrangement timeAndId (store.ofConversation convId)) :
    Exact 50 page pageSize (messageOrder store convId order) (store.getMessages convId page pageSize order answer) := by
  have same := lists_same answer (Arrangement.sorted timeAndId (store.ofConversation convId)) (timeAndId_alone store convId)
  rw [messageOrder,← same]
  exact getMessages_exact fits answer

theorem search_exact (fits : Fits 20 page pageSize) (untied : Untied store like userId keyword page pageSize)
    (answer : Arrangement MessageSearchRow.createdAt (store.searched like userId keyword)) :
    Exact 20 page pageSize (searchOrder store like userId keyword) (store.searchMessages like userId keyword page pageSize answer) := by
  obtain ⟨items,more⟩ := searchMessages_exact fits answer
  refine ⟨items.trans (windows_same answer _ _ _ untied),more.trans ?_⟩
  rw [answer.perm.length_eq,searchOrder,(Arrangement.sorted _ _).perm.length_eq]

-- Two tied messages may change places from one answer to the next.
theorem search_tied (fits : Fits 20 page pageSize) (rows : List MessageSearchRow)
    (each : ∀ answer : Arrangement MessageSearchRow.createdAt (store.searched like userId keyword),
      Exact 20 page pageSize rows (store.searchMessages like userId keyword page pageSize answer)) :
    Untied store like userId keyword page pageSize := by
  intro item shown other member tied
  have place : item ∈ store.searched like userId keyword :=
    (Arrangement.sorted _ _).perm.mem_iff.mp (List.mem_of_mem_drop (List.mem_of_mem_take shown))
  let sorted := Arrangement.sorted MessageSearchRow.createdAt (store.searched like userId keyword)
  let swapped := sorted.swap (searched_nodup store like userId keyword) place member tied
  have same : slice swapped.list (effectivePage page).toNat (effectiveSize 20 pageSize).toNat =
      slice sorted.list (effectivePage page).toNat (effectiveSize 20 pageSize).toNat :=
    ((searchMessages_exact fits swapped).1.symm.trans (each swapped).1).trans ((each sorted).1.symm.trans (searchMessages_exact fits sorted).1)
  have moved := (window_swap sorted (searched_nodup store like userId keyword) place member tied _ _).symm.trans same
  have kept : Equiv.swap item other item = item := List.map_inj_left.mp (moved.trans (List.map_id _).symm) item shown
  rw [Equiv.swap_apply_left] at kept
  exact kept

-- Pages `1 .. n` in a row.
theorem pages_concat {α : Type} {standard pageSize : UInt32} {n : Nat} (bound : n < 2 ^ 32) (rows : List α) (results : Nat → PaginatedResult α)
    (each : ∀ i < n, Exact standard (UInt32.ofNat (i + 1)) pageSize rows (results i)) :
    (List.range n).flatMap (fun i => (results i).items) = rows.take (n * (effectiveSize standard pageSize).toNat) := by
  rw [← slices_concat]
  refine List.flatMap_congr fun i inside => ?_
  have below := List.mem_range.mp inside
  have page : (effectivePage (UInt32.ofNat (i + 1))).toNat = i + 1 := by
    have value : (UInt32.ofNat (i + 1)).toNat = i + 1 := UInt32.toNat_ofNat_of_lt' (Nat.lt_of_le_of_lt below bound)
    have some_ : UInt32.ofNat (i + 1) ≠ 0 := fun zero => Nat.succ_ne_zero i (value.symm.trans (congrArg UInt32.toNat zero))
    rw [effectivePage,if_neg some_,value]
  rw [(each i below).1,page]

theorem message_pages_iff (store : Store) (like : String → String → Bool) :
    (∀ convId order page pageSize,
      (Fits 50 page pageSize ∧ ∀ answer, Exact 50 page pageSize (messageOrder store convId order) (store.getMessages convId page pageSize order answer)) ↔
        Fits 50 page pageSize) ∧
    (∀ convId order pageSize (n : Nat) (answers : Nat → Arrangement timeAndId (store.ofConversation convId)), n < 2 ^ 32 →
      (∀ i < n, Fits 50 (UInt32.ofNat (i + 1)) pageSize) →
      (List.range n).flatMap (fun i => (store.getMessages convId (UInt32.ofNat (i + 1)) pageSize order (answers i)).items) =
        (messageOrder store convId order).take (n * (effectiveSize 50 pageSize).toNat)) ∧
    (∀ userId keyword page pageSize,
      ((Fits 20 page pageSize ∧ ∃ rows, ∀ answer, Exact 20 page pageSize rows (store.searchMessages like userId keyword page pageSize answer)) ↔
        Fits 20 page pageSize ∧ Untied store like userId keyword page pageSize) ∧
      (Fits 20 page pageSize ∧ Untied store like userId keyword page pageSize →
        ∀ answer, Exact 20 page pageSize (searchOrder store like userId keyword) (store.searchMessages like userId keyword page pageSize answer))) ∧
    ∀ userId keyword pageSize (n : Nat) (answers : Nat → Arrangement MessageSearchRow.createdAt (store.searched like userId keyword)), n < 2 ^ 32 →
      (∀ i < n, Fits 20 (UInt32.ofNat (i + 1)) pageSize ∧ Untied store like userId keyword (UInt32.ofNat (i + 1)) pageSize) →
      (List.range n).flatMap (fun i => (store.searchMessages like userId keyword (UInt32.ofNat (i + 1)) pageSize (answers i)).items) =
        (searchOrder store like userId keyword).take (n * (effectiveSize 20 pageSize).toNat) := by
  refine ⟨fun convId order page pageSize => ⟨And.left,fun fits => ⟨fits,get_exact fits⟩⟩,?_,fun userId keyword page pageSize => ⟨?_,?_⟩,?_⟩
  · intro convId order pageSize n answers bound fits
    exact pages_concat bound _ _ fun i below => get_exact (fits i below) (answers i)
  · constructor
    · rintro ⟨fits,rows,each⟩
      exact ⟨fits,search_tied fits rows each⟩
    · rintro ⟨fits,untied⟩
      exact ⟨fits,_,search_exact fits untied⟩
  · rintro ⟨fits,untied⟩
    exact search_exact fits untied
  · intro userId keyword pageSize n answers bound meets
    exact pages_concat bound _ _ fun i below => search_exact (meets i below).1 (meets i below).2 (answers i)

end Results

section Examples

private def sent (id : String) : MessageRow String := ⟨id,"c",none,"text","hello",none,none,false,5⟩

private def own : ConversationRow := ⟨"c","u","talk","acp","{}",none,none,none,none,false,none,0,0⟩

private def twoMessages : Store where
  messages := [sent "m1",sent "m2"]
  conversations := [own]
  distinct := by decide

private def hit (id : String) : MessageSearchRow := ⟨id,"text","hello",5,own⟩

private def firstAnswer : Arrangement MessageSearchRow.createdAt (twoMessages.searched (fun _ _ => true) "u" "hello") where
  list := [hit "m1",hit "m2"]
  perm := by decide
  falling := by decide

private def secondAnswer : Arrangement MessageSearchRow.createdAt (twoMessages.searched (fun _ _ => true) "u" "hello") where
  list := [hit "m2",hit "m1"]
  perm := by decide
  falling := by decide

-- Page two of the search is page one again, `m2` is on neither. A page of the
-- largest size is empty, its query asks for no row.
theorem match_left_out :
    (twoMessages.searchMessages (fun _ _ => true) "u" "hello" 1 1 firstAnswer).items = [hit "m1"] ∧
    (twoMessages.searchMessages (fun _ _ => true) "u" "hello" 2 1 secondAnswer).items = [hit "m1"] ∧
    ∀ answer, (twoMessages.getMessages "c" 1 4294967295 .desc answer).items = [] := by
  refine ⟨by decide,by decide,fun answer => ?_⟩
  have none_ : fetched 50 1 4294967295 (SortOrder.desc.read answer.list) = [] := by
    have limit : (fetchLimit 50 4294967295).toNat = 0 := by decide
    rw [fetched,limit]
    exact List.take_zero
  unfold Store.getMessages
  simp only [none_,List.dropLast_nil,ite_self]

end Examples

end AlineaCopilot.MessagePages

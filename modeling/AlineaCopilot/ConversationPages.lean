import Mathlib.Data.Prod.Lex
import Mathlib.Data.String.Basic
import AlineaCopilot.KeysetPages
open AlineaCopilot.KeysetPages

namespace AlineaCopilot.ConversationPages

-- What the listing reads of a conversation. The two job ids are what
-- `json_extract` finds in `extra` under `cronJobId` and `cron_job_id`.
structure ConversationRow where
  id : String
  userId : String
  source : Option String
  camelCronJobId : Option String
  snakeCronJobId : Option String
  pinned : Bool
  projectId : Option String
  updatedAt : Int
deriving DecidableEq, Repr

-- The table; the id is its primary key.
structure Conversations where
  rows : List ConversationRow
  distinct : (rows.map ConversationRow.id).Nodup

structure ConversationFilters where
  cursor : Option String
  limit : UInt32
  source : Option String
  cronJobId : Option String
  pinned : Option Bool
  projectId : Option String
deriving DecidableEq

structure PaginatedResult where
  items : List ConversationRow
  total : Nat
  hasMore : Bool
deriving DecidableEq, Repr

section Repository

def ConversationFilters.effectiveLimit (filters : ConversationFilters) : UInt32 :=
  if filters.limit = 0 then 20 else filters.limit

-- A column that is NULL equals nothing.
def ConversationFilters.conditions (filters : ConversationFilters) (row : ConversationRow) : Bool :=
  (filters.source.all fun source => row.source = some source) &&
  (filters.cronJobId.all fun job => row.camelCronJobId = some job || row.snakeCronJobId = some job) &&
  (filters.pinned.all fun pinned => row.pinned = pinned) &&
  (filters.projectId.all fun project => row.projectId = some project)

-- `SELECT updated_at FROM conversations WHERE id = ?`.
def Conversations.updatedAtOf (db : Conversations) (id : String) : Option Int :=
  (db.rows.find? fun row => row.id = id).map ConversationRow.updatedAt

-- The condition on the cursor looks its row up again. Without that row both
-- comparisons are with NULL.
def Conversations.pastCursor (db : Conversations) (cursor : Option String) (row : ConversationRow) : Bool :=
  match cursor with
  | none => true
  | some id => match db.updatedAtOf id with
    | none => false
    | some updatedAt => row.updatedAt < updatedAt || (row.updatedAt = updatedAt && row.id < id)

-- `ORDER BY c.updated_at DESC, c.id DESC`.
def ConversationRow.sortKey (row : ConversationRow) : Int ×ₗ String := toLex (row.updatedAt,row.id)

def Conversations.matching (db : Conversations) (userId : String) (filters : ConversationFilters) : List ConversationRow :=
  db.rows.filter fun row => row.userId = userId && filters.conditions row

-- The limit is a 32-bit number; one more than the largest is zero.
def Conversations.listPaginated (db : Conversations) (userId : String) (filters : ConversationFilters) : PaginatedResult :=
  let limit := filters.effectiveLimit
  let fetchLimit := limit + 1
  let found := (db.matching userId filters).filter (db.pastCursor filters.cursor)
  let rows := (inOrder ConversationRow.sortKey found).take fetchLimit.toNat
  let hasMore := limit < UInt32.ofNat rows.length
  ⟨if hasMore then rows.dropLast else rows,(db.matching userId filters).length,hasMore⟩

end Repository

section Walk

-- The pages that a client asks for one after the other, each from the table as
-- it is then, with the last item of the page before as the cursor.
def page (dbs : Nat → Conversations) (userId : String) (filters : ConversationFilters) : Nat → PaginatedResult
  | 0 => (dbs 0).listPaginated userId { filters with cursor := none }
  | n + 1 => (dbs (n + 1)).listPaginated userId
      { filters with cursor := (page dbs userId filters n).items.getLast?.map ConversationRow.id }

def collected (dbs : Nat → Conversations) (userId : String) (filters : ConversationFilters) : Nat → List ConversationRow
  | 0 => (page dbs userId filters 0).items
  | n + 1 => collected dbs userId filters n ++ (page dbs userId filters (n + 1)).items

-- The walk is over with the first page that has no more behind it.
def EndsAt (dbs : Nat → Conversations) (userId : String) (filters : ConversationFilters) (n : Nat) : Prop :=
  (page dbs userId filters n).hasMore = false ∧ ∀ i, i < n → (page dbs userId filters i).hasMore = true

-- Every conversation the walk is to show, in the order it is to show them.
def Conversations.listing (db : Conversations) (userId : String) (filters : ConversationFilters) : List ConversationRow :=
  inOrder ConversationRow.sortKey (db.matching userId filters)

end Walk

section Pages
variable {db : Conversations} {userId : String} {filters : ConversationFilters} {cursor : Option String}

-- The cursor as a cut of the sort keys.
def Conversations.cut (db : Conversations) (cursor : Option String) (key : Int ×ₗ String) : Bool :=
  match cursor with
  | none => true
  | some id => match db.updatedAtOf id with
    | none => false
    | some updatedAt => key < toLex (updatedAt,id)

theorem pastCursor_cut (db : Conversations) (cursor : Option String) (row : ConversationRow) :
    db.pastCursor cursor row = db.cut cursor row.sortKey := by
  cases cursor with
  | none => rfl
  | some id =>
    simp only [Conversations.pastCursor,Conversations.cut]
    cases db.updatedAtOf id with
    | none => rfl
    | some updatedAt => simp [ConversationRow.sortKey,Prod.Lex.toLex_lt_toLex]

theorem cut_lower (db : Conversations) (cursor : Option String) : IsLowerSet {key | db.cut cursor key = true} := by
  intro high low below taken
  simp only [Set.mem_ofPred_eq,Conversations.cut] at taken ⊢
  cases cursor with
  | none => rfl
  | some id =>
    cases found : db.updatedAtOf id with
    | none => simp [found] at taken
    | some updatedAt =>
      simp only [found,decide_eq_true_eq] at taken ⊢
      exact below.trans_lt taken

theorem mem_listing : row ∈ db.listing userId filters ↔ row ∈ db.rows ∧ row.userId = userId ∧ filters.conditions row = true := by
  simp [Conversations.listing,Conversations.matching]

theorem distinct_keys (db : Conversations) : db.rows.Pairwise fun a b => a.sortKey ≠ b.sortKey := by
  refine (List.pairwise_map.mp db.distinct).imp fun apart same => apart ?_
  exact congrArg (fun key => (ofLex key).2) same

theorem descending_listing (db : Conversations) (userId : String) (filters : ConversationFilters) :
    Descending ConversationRow.sortKey (db.listing userId filters) :=
  descending_inOrder ((distinct_keys db).filter _)

-- The rows of a page are those of the listing past its cursor.
theorem inOrder_past (db : Conversations) (userId : String) (filters : ConversationFilters) (cursor : Option String) :
    inOrder ConversationRow.sortKey ((db.matching userId filters).filter (db.pastCursor cursor)) =
      (db.listing userId filters).filter fun row => db.cut cursor row.sortKey := by
  refine (descending_inOrder (((distinct_keys db).filter _).filter _)).ext ((descending_listing db userId filters).filter _) ?_
  intro row
  simp only [mem_inOrder,List.mem_filter,Conversations.listing,Conversations.matching,pastCursor_cut]

theorem limit_pos (filters : ConversationFilters) : 0 < filters.effectiveLimit.toNat := by
  unfold ConversationFilters.effectiveLimit
  split
  · decide
  · rename_i positive
    exact Nat.pos_of_ne_zero fun zero => positive (UInt32.toNat_inj.mp zero)

theorem limit_succ (room : filters.effectiveLimit + 1 ≠ 0) :
    (filters.effectiveLimit + 1).toNat = filters.effectiveLimit.toNat + 1 := by
  have unlike : (filters.effectiveLimit + 1).toNat ≠ 0 := fun zero => room (UInt32.toNat_inj.mp zero)
  have small := filters.effectiveLimit.toNat_lt
  rw [UInt32.toNat_add] at unlike ⊢
  have one : (1 : UInt32).toNat = 1 := rfl
  omega

-- With room for one row more than the limit, that row tells whether there is more.
theorem listPaginated_exact (room : filters.effectiveLimit + 1 ≠ 0)
    (past : (db.listing userId filters).filter (fun row => db.cut cursor row.sortKey) = rows) :
    (db.listPaginated userId { filters with cursor := cursor }).hasMore = decide (filters.effectiveLimit.toNat < rows.length) ∧
    (db.listPaginated userId { filters with cursor := cursor }).items =
      if filters.effectiveLimit.toNat < rows.length then rows.take filters.effectiveLimit.toNat else rows := by
  have more : (filters.effectiveLimit < UInt32.ofNat (rows.take (filters.effectiveLimit.toNat + 1)).length) ↔
      filters.effectiveLimit.toNat < rows.length := by
    have small := (filters.effectiveLimit + 1).toNat_lt
    rw [limit_succ room] at small
    have fits : min (filters.effectiveLimit.toNat + 1) rows.length < UInt32.size :=
      lt_of_le_of_lt (Nat.min_le_left _ _) small
    rw [List.length_take,UInt32.lt_iff_toNat_lt,UInt32.toNat_ofNat_of_lt' fits]
    omega
  have found : inOrder ConversationRow.sortKey ((db.matching userId { filters with cursor := cursor }).filter
      (db.pastCursor cursor)) = rows := (inOrder_past db userId filters cursor).trans past
  have limit : ({ filters with cursor := cursor } : ConversationFilters).effectiveLimit = filters.effectiveLimit := rfl
  simp only [Conversations.listPaginated,found,limit,limit_succ room,more,true_and]
  split
  · rename_i longer
    rw [List.dropLast_eq_take,List.take_take,List.length_take,Nat.min_eq_left longer]
    simp
  · exact List.take_of_length_le (by omega)

end Pages

end AlineaCopilot.ConversationPages

import AlineaCopilot.ConversationPages
open AlineaCopilot.KeysetPages

namespace AlineaCopilot.ConversationPages

section Conditions
variable (dbs : Nat → Conversations) (userId : String) (filters : ConversationFilters)

-- A conversation whose row is the same for every page.
def Untouched (n : Nat) (row : ConversationRow) : Prop := ∀ i ≤ n, row ∈ (dbs i).rows

instance (n : Nat) (row : ConversationRow) : Decidable (Untouched dbs n row) := Nat.decidableBallLE ..

-- The cursor with which page i was asked for, and the one it leaves behind.
def cursorBefore : Nat → Option String
  | 0 => none
  | i + 1 => (page dbs userId filters i).items.getLast?.map ConversationRow.id

def cursorAfter (i : Nat) : Option String := cursorBefore dbs userId filters (i + 1)

-- The untouched conversations past the cursor are the same for the next page as
-- they were when its row was listed.
def CursorStays (n i : Nat) : Prop :=
  ∀ row, Untouched dbs n row → row.userId = userId → filters.conditions row = true →
    (dbs (i + 1)).pastCursor (cursorAfter dbs userId filters i) row = (dbs i).pastCursor (cursorAfter dbs userId filters i) row

end Conditions

section Steps
variable {dbs : Nat → Conversations} {userId : String} {filters : ConversationFilters} {n i : Nat}

theorem page_eq (i : Nat) : page dbs userId filters i =
    (dbs i).listPaginated userId { filters with cursor := cursorBefore dbs userId filters i } := by
  cases i <;> rfl

theorem page_exact (dbs : Nat → Conversations) (i : Nat) (room : filters.effectiveLimit + 1 ≠ 0)
    (past : ((dbs i).listing userId filters).filter
      (fun row => (dbs i).cut (cursorBefore dbs userId filters i) row.sortKey) = rows) :
    (page dbs userId filters i).hasMore = decide (filters.effectiveLimit.toNat < rows.length) ∧
    (page dbs userId filters i).items =
      if filters.effectiveLimit.toNat < rows.length then rows.take filters.effectiveLimit.toNat else rows := by
  rw [page_eq]
  exact listPaginated_exact room past

theorem updatedAtOf_row {db : Conversations} (inside : row ∈ db.rows) : db.updatedAtOf row.id = some row.updatedAt := by
  cases found : db.rows.find? fun other => other.id = row.id with
  | none => exact absurd inside fun _ => by simpa using List.find?_eq_none.mp found row inside
  | some other =>
    have same : other.id = row.id := by simpa using List.find?_some found
    cases List.inj_on_of_nodup_map db.distinct (List.mem_of_find?_eq_some found) inside same
    simp [Conversations.updatedAtOf,found]

-- Where a listed row is the cursor, the rows past it are those below it.
theorem cut_row {db : Conversations} (inside : row ∈ db.rows) (key : Int ×ₗ String) :
    db.cut (some row.id) key = decide (key < row.sortKey) := by
  simp only [Conversations.cut,updatedAtOf_row inside]
  rfl

theorem untouched_listing (within : i ≤ n) : ((dbs i).listing userId filters).filter (Untouched dbs n) =
    ((dbs 0).listing userId filters).filter (Untouched dbs n) := by
  refine ((descending_listing _ _ _).filter _).ext ((descending_listing _ _ _).filter _) fun row => ?_
  simp only [List.mem_filter,mem_listing,decide_eq_true_eq]
  constructor
  · rintro ⟨⟨_,matching⟩,untouched⟩
    exact ⟨⟨untouched 0 (Nat.zero_le _),matching⟩,untouched⟩
  · rintro ⟨⟨_,matching⟩,untouched⟩
    exact ⟨⟨untouched i within,matching⟩,untouched⟩

-- One page: what was to come before its cursor and the page itself make up the
-- listing down to the page's last row, or the whole of it.
theorem page_joins (room : filters.effectiveLimit + 1 ≠ 0) (i : Nat) :
    let before := ((dbs i).listing userId filters).filter
      fun row => !(dbs i).cut (cursorBefore dbs userId filters i) row.sortKey
    ((page dbs userId filters i).hasMore = true → ∃ last, (page dbs userId filters i).items.getLast? = some last ∧
      last ∈ (dbs i).rows ∧ before ++ (page dbs userId filters i).items =
        ((dbs i).listing userId filters).filter fun row => last.sortKey ≤ row.sortKey) ∧
    ((page dbs userId filters i).hasMore = false →
      before ++ (page dbs userId filters i).items = (dbs i).listing userId filters) := by
  intro before
  obtain ⟨more,items⟩ := page_exact dbs i room rfl
  have lower := cut_lower (dbs i) (cursorBefore dbs userId filters i)
  have descending := descending_listing (dbs i) userId filters
  constructor
  · intro has
    rw [more,decide_eq_true_eq] at has
    rw [if_pos has] at items
    rw [items]
    have nonempty : ((((dbs i).listing userId filters).filter fun row =>
        (dbs i).cut (cursorBefore dbs userId filters i) row.sortKey).take filters.effectiveLimit.toNat) ≠ [] := by
      intro empty
      have length := congrArg List.length empty
      have positive := limit_pos filters
      simp only [List.length_take,List.length_nil] at length
      omega
    obtain ⟨last,ends⟩ := Option.isSome_iff_exists.mp (List.getLast?_isSome.mpr nonempty)
    have inside : last ∈ (dbs i).listing userId filters :=
      (List.mem_filter.mp (List.mem_of_mem_take (List.mem_of_getLast? ends))).1
    exact ⟨last,ends,(mem_listing.mp inside).1,descending.next_page lower ends⟩
  · intro last
    rw [more,decide_eq_false_iff_not] at last
    rw [items,if_neg last]
    exact descending.split lower

end Steps

section Walk
variable {dbs : Nat → Conversations} {userId : String} {filters : ConversationFilters} {n i : Nat}

def listedBefore (dbs : Nat → Conversations) (userId : String) (filters : ConversationFilters) : Nat → List ConversationRow
  | 0 => []
  | i + 1 => collected dbs userId filters i

theorem collected_eq (i : Nat) : collected dbs userId filters i =
    listedBefore dbs userId filters i ++ (page dbs userId filters i).items := by
  cases i <;> rfl

-- What was listed so far, as far as it is untouched: all there is before the cursor.
def ListedToCursor (dbs : Nat → Conversations) (userId : String) (filters : ConversationFilters) (n i : Nat) : Prop :=
  (listedBefore dbs userId filters i).filter (Untouched dbs n) =
    (((dbs 0).listing userId filters).filter (Untouched dbs n)).filter
      fun row => !(dbs i).cut (cursorBefore dbs userId filters i) row.sortKey

theorem ListedToCursor.join (listed : ListedToCursor dbs userId filters n i) (within : i ≤ n) :
    (collected dbs userId filters i).filter (Untouched dbs n) =
      (((dbs i).listing userId filters).filter (fun row => !(dbs i).cut (cursorBefore dbs userId filters i) row.sortKey) ++
        (page dbs userId filters i).items).filter (Untouched dbs n) := by
  rw [collected_eq,List.filter_append,List.filter_append,listed,← untouched_listing within]
  congr 1
  rw [List.filter_filter,List.filter_filter]
  simp only [Bool.and_comm]

theorem ListedToCursor.last (listed : ListedToCursor dbs userId filters n i) (within : i ≤ n)
    (room : filters.effectiveLimit + 1 ≠ 0) (ends : (page dbs userId filters i).hasMore = false) :
    (collected dbs userId filters i).filter (Untouched dbs n) =
      ((dbs 0).listing userId filters).filter (Untouched dbs n) := by
  rw [listed.join within,(page_joins room i).2 ends,untouched_listing within]

theorem ListedToCursor.next (listed : ListedToCursor dbs userId filters n i) (within : i < n)
    (room : filters.effectiveLimit + 1 ≠ 0) (more : (page dbs userId filters i).hasMore = true)
    (stays : CursorStays dbs userId filters n i) : ListedToCursor dbs userId filters n (i + 1) := by
  obtain ⟨last,ends,inside,joined⟩ := (page_joins room i).1 more
  have cursor : cursorAfter dbs userId filters i = some last.id := by
    simp [cursorAfter,cursorBefore,ends]
  unfold ListedToCursor
  calc (listedBefore dbs userId filters (i + 1)).filter (Untouched dbs n)
      = (((dbs 0).listing userId filters).filter (Untouched dbs n)).filter fun row => last.sortKey ≤ row.sortKey := by
        rw [listedBefore,listed.join within.le,joined,← untouched_listing within.le,List.filter_filter,List.filter_filter]
        exact List.filter_congr fun row _ => Bool.and_comm ..
    _ = _ := by
        refine List.filter_congr fun row member => ?_
        obtain ⟨listing,untouched⟩ := List.mem_filter.mp member
        have matching := (mem_listing.mp listing).2
        have same := stays row (of_decide_eq_true untouched) matching.1 matching.2
        rw [pastCursor_cut,pastCursor_cut,cursor,cut_row inside] at same
        rw [show cursorBefore dbs userId filters (i + 1) = some last.id from cursor,same,← decide_not]
        exact decide_eq_decide.mpr not_lt.symm

theorem listed_to_cursor (room : filters.effectiveLimit + 1 ≠ 0)
    (stays : ∀ j, j < n → CursorStays dbs userId filters n j) (within : i ≤ n)
    (more : ∀ j, j < i → (page dbs userId filters j).hasMore = true) : ListedToCursor dbs userId filters n i := by
  induction i with
  | zero =>
    have none : ∀ row ∈ ((dbs 0).listing userId filters).filter (Untouched dbs n),
        ¬(!(dbs 0).cut (cursorBefore dbs userId filters 0) row.sortKey) = true := fun _ _ => nofun
    exact (List.filter_eq_nil_iff.mpr none).symm
  | succ i ih =>
    have listed := ih (Nat.le_of_succ_le within) fun j earlier => more j (Nat.lt_succ_of_lt earlier)
    exact listed.next within room (more i (Nat.lt_succ_self i)) (stays i within)

end Walk

section Unchanged
variable {db : Conversations} {dbs : Nat → Conversations} {userId : String} {filters : ConversationFilters}

-- The limit after which the fetch limit is zero asks for nothing.
theorem page_overflow (dbs : Nat → Conversations) (userId : String) (full : filters.effectiveLimit + 1 = 0) (i : Nat) :
    (page dbs userId filters i).items = [] ∧ (page dbs userId filters i).hasMore = false := by
  have limit : ∀ cursor, ({ filters with cursor := cursor } : ConversationFilters).effectiveLimit = filters.effectiveLimit :=
    fun _ => rfl
  rw [page_eq]
  simp [Conversations.listPaginated,limit,full]

theorem items_subset (i : Nat) : (page dbs userId filters i).items ⊆ (dbs i).rows := by
  intro row inside
  rw [page_eq] at inside
  simp only [Conversations.listPaginated] at inside
  split at inside
  · have taken := (mem_inOrder row).mp (List.mem_of_mem_take (List.dropLast_subset _ inside))
    exact (List.mem_filter.mp (List.mem_filter.mp taken).1).1
  · have taken := (mem_inOrder row).mp (List.mem_of_mem_take inside)
    exact (List.mem_filter.mp (List.mem_filter.mp taken).1).1

theorem collected_untouched (n i : Nat) :
    (collected (fun _ => db) userId filters i).filter (Untouched (fun _ => db) n) = collected (fun _ => db) userId filters i := by
  have all : ∀ row ∈ collected (fun _ => db) userId filters i, row ∈ db.rows := by
    induction i with
    | zero => exact fun row inside => items_subset 0 inside
    | succ i ih =>
      intro row inside
      rcases List.mem_append.mp inside with before | last
      · exact ih row before
      · exact items_subset (i + 1) last
  exact List.filter_eq_self.mpr fun row inside => decide_eq_true fun _ _ => all row inside

theorem listing_untouched (n : Nat) :
    (db.listing userId filters).filter (Untouched (fun _ => db) n) = db.listing userId filters :=
  List.filter_eq_self.mpr fun _ inside => decide_eq_true fun _ _ => (mem_listing.mp inside).1

theorem collected_length (room : filters.effectiveLimit + 1 ≠ 0)
    (more : ∀ j, j ≤ i → (page dbs userId filters j).hasMore = true) : i < (collected dbs userId filters i).length := by
  have grows : ∀ j, j ≤ i → 0 < (page dbs userId filters j).items.length := by
    intro j within
    obtain ⟨last,ends,_⟩ := (page_joins room j).1 (more j within)
    exact List.length_pos_of_mem (List.mem_of_getLast? ends)
  induction i with
  | zero => exact grows 0 (Nat.le_refl _)
  | succ i ih =>
    have before := ih (fun j within => more j (Nat.le_succ_of_le within)) fun j within => grows j (Nat.le_succ_of_le within)
    have last := grows (i + 1) (Nat.le_refl _)
    simp only [collected,List.length_append]
    omega

-- Every page of a table that stays as it is takes the walk on, so it ends.
theorem unchanged_ends (db : Conversations) (userId : String) (room : filters.effectiveLimit + 1 ≠ 0) : ∃ n, EndsAt (fun _ => db) userId filters n := by
  have last : ∃ n, (page (fun _ => db) userId filters n).hasMore = false := by
    by_contra never
    have more : ∀ n, (page (fun _ => db) userId filters n).hasMore = true := fun n =>
      Bool.eq_true_of_not_eq_false fun ends => never ⟨n,ends⟩
    let n := (db.listing userId filters).length
    have long : n < (collected (fun _ => db) userId filters n).length := collected_length room fun j _ => more j
    have listed : ListedToCursor (fun _ => db) userId filters (n + 1) (n + 1) :=
      listed_to_cursor room (fun _ _ _ _ _ _ => rfl) (Nat.le_refl _) fun j _ => more j
    have short := congrArg List.length listed
    rw [listing_untouched,listedBefore,collected_untouched] at short
    exact absurd (short.trans_le (List.length_filter_le _ _)) (Nat.not_le.mpr long)
  refine ⟨Nat.find last,Nat.find_spec last,fun i earlier => ?_⟩
  exact Bool.eq_true_of_not_eq_false (Nat.find_min last earlier)

theorem unchanged_walk (db : Conversations) (userId : String) (filters : ConversationFilters) :
    (∃ n, EndsAt (fun _ => db) userId filters n ∧ collected (fun _ => db) userId filters n = db.listing userId filters) ↔
      filters.effectiveLimit + 1 ≠ 0 ∨ db.listing userId filters = [] := by
  by_cases full : filters.effectiveLimit + 1 = 0
  · obtain ⟨nothing,ends⟩ := page_overflow (fun _ => db) userId full 0
    constructor
    · rintro ⟨n,ending,whole⟩
      cases n with
      | zero => exact .inr (whole.symm.trans nothing)
      | succ n =>
        have more := ending.2 0 (Nat.succ_pos n)
        rw [ends] at more
        cases more
    · rintro (room | empty)
      · exact absurd full room
      · exact ⟨0,⟨ends,fun _ none => absurd none (Nat.not_lt_zero _)⟩,nothing.trans empty.symm⟩
  · refine ⟨fun _ => .inl full,fun _ => ?_⟩
    obtain ⟨n,ending⟩ := unchanged_ends db userId full
    have listed : ListedToCursor (fun _ => db) userId filters n n :=
      listed_to_cursor full (fun _ _ _ _ _ _ => rfl) (Nat.le_refl _) ending.2
    have whole := listed.last (Nat.le_refl _) full ending.1
    rw [collected_untouched,listing_untouched] at whole
    exact ⟨n,ending,whole⟩

end Unchanged

-- A walk over a table that stays as it is shows the whole listing exactly when
-- the limit leaves room for one row more (or there is nothing to show). While
-- other conversations change, it shows every untouched one once and in order as
-- long as none of them changes sides with the cursor's row.
theorem page_walk_exact (userId : String) (filters : ConversationFilters) :
    (∀ db,
      (∃ n, EndsAt (fun _ => db) userId filters n ∧ collected (fun _ => db) userId filters n = db.listing userId filters) ↔
        filters.effectiveLimit + 1 ≠ 0 ∨ db.listing userId filters = []) ∧
    (∀ dbs n, filters.effectiveLimit + 1 ≠ 0 → EndsAt dbs userId filters n →
      (∀ i, i < n → CursorStays dbs userId filters n i) →
        (collected dbs userId filters n).filter (Untouched dbs n) =
          ((dbs 0).listing userId filters).filter (Untouched dbs n)) := by
  refine ⟨fun db => unchanged_walk db userId filters,fun dbs n room ending stays => ?_⟩
  have listed : ListedToCursor dbs userId filters n n := listed_to_cursor room stays (Nat.le_refl _) ending.2
  exact listed.last (Nat.le_refl _) room ending.1

-- The row of the cursor may change as long as its time of update does not.
theorem cursor_stays (same : ∀ id, cursorAfter dbs userId filters i = some id →
    (dbs (i + 1)).updatedAtOf id = (dbs i).updatedAtOf id) : CursorStays dbs userId filters n i := by
  intro row _ _ _
  cases cursor : cursorAfter dbs userId filters i with
  | none => rfl
  | some id => simp only [Conversations.pastCursor,same id cursor]

section Examples

def chat (id : String) (updatedAt : Int) : ConversationRow := ⟨id,"ana",none,none,none,false,none,updatedAt⟩

def threeChats : Conversations := ⟨[chat "a" 3,chat "b" 2,chat "c" 1],by decide⟩

def pagesOf (limit : UInt32) : ConversationFilters := ⟨none,limit,none,none,none,none⟩

-- The first page ends with a chat that is gone, or has been used again, when
-- the second page is asked for.
def cursorDeleted : Nat → Conversations
  | 0 => threeChats
  | _ => ⟨[chat "b" 2,chat "c" 1],by decide⟩

def cursorBumped : Nat → Conversations
  | 0 => threeChats
  | _ => ⟨[chat "a" 3,chat "b" 10,chat "c" 1],by decide⟩

theorem moved_cursor_breaks_walk :
    (EndsAt cursorDeleted "ana" (pagesOf 1) 1 ∧
      (collected cursorDeleted "ana" (pagesOf 1) 1).filter (Untouched cursorDeleted 1) = [] ∧
      ((cursorDeleted 0).listing "ana" (pagesOf 1)).filter (Untouched cursorDeleted 1) = [chat "b" 2,chat "c" 1]) ∧
    (EndsAt cursorBumped "ana" (pagesOf 2) 1 ∧
      (collected cursorBumped "ana" (pagesOf 2) 1).filter (Untouched cursorBumped 1) = [chat "a" 3,chat "a" 3,chat "c" 1] ∧
      ((cursorBumped 0).listing "ana" (pagesOf 2)).filter (Untouched cursorBumped 1) = [chat "a" 3,chat "c" 1]) := by
  refine ⟨⟨⟨?_,?_⟩,?_,?_⟩,⟨?_,?_⟩,?_,?_⟩ <;> decide

-- Another chat than the cursor's is used again between the pages.
def otherBumped : Nat → Conversations
  | 0 => threeChats
  | _ => ⟨[chat "a" 3,chat "b" 2,chat "c" 10],by decide⟩

theorem page_walk_exact_bumped : EndsAt otherBumped "ana" (pagesOf 1) 1 ∧
    (collected otherBumped "ana" (pagesOf 1) 1).filter (Untouched otherBumped 1) =
      ((otherBumped 0).listing "ana" (pagesOf 1)).filter (Untouched otherBumped 1) := by
  have ending : EndsAt otherBumped "ana" (pagesOf 1) 1 := ⟨by decide,by decide⟩
  refine ⟨ending,(page_walk_exact "ana" (pagesOf 1)).2 _ _ (by decide) ending fun i within => cursor_stays fun id cursor => ?_⟩
  cases Nat.lt_one_iff.mp within
  have first : cursorAfter otherBumped "ana" (pagesOf 1) 0 = some "a" := by decide
  cases first.symm.trans cursor
  decide

end Examples

end AlineaCopilot.ConversationPages

import Mathlib.Data.List.Nodup
import Mathlib.Data.String.Basic
import AlineaCopilot.JsonTrees

open AlineaCopilot.JsonTrees

namespace AlineaCopilot.CaseConvert

-- The scan with the letter before.
def snakeFrom : Option Char → List Char → List Char
  | _,[] => []
  | prev,c :: rest =>
    if c.isUpper then
      let prevIsLowerOrDigit := prev.any fun p => p.isLower || p.isDigit
      let nextIsLower := rest.head?.any Char.isLower
      let prevIsUpper := prev.any Char.isUpper
      (if prevIsLowerOrDigit || (prevIsUpper && nextIsLower) then ['_'] else []) ++ c.toLower :: snakeFrom (some c) rest
    else c :: snakeFrom (some c) rest

-- Convert a single identifier from camelCase / PascalCase to snake_case.
def camelToSnake (input : String) : String := String.ofList (snakeFrom none input.toList)

section Normalise
variable {σ : Type}

-- Recursively rewrite every object key to snake_case. What stands under `_meta`
-- is left verbatim.
mutual
def normalizeKeys : Json String σ → Json String σ
  | .scalar s => .scalar s
  | .array items => .array (normalizeItems items)
  | .object fields => .object (collect (normalizeFields fields))
def normalizeItems : List (Json String σ) → List (Json String σ)
  | [] => []
  | item :: rest => normalizeKeys item :: normalizeItems rest
def normalizeFields : List (String × Json String σ) → List (String × Json String σ)
  | [] => []
  | (k,v) :: rest => (if k = "_meta" then (k,v) else (camelToSnake k,normalizeKeys v)) :: normalizeFields rest
end

-- Nothing is lost: the fields of an object correspond to each other one to one.
inductive Kept : Json String σ → Json String σ → Prop where
  | scalar : Kept (.scalar s) (.scalar s)
  | array (same : items.length = others.length) (each : ∀ pair ∈ items.zip others, Kept pair.1 pair.2) : Kept (.array items) (.array others)
  | object (pairs : List ((String × Json String σ) × (String × Json String σ))) (before : fields = pairs.map Prod.fst)
      (after : others.Perm (pairs.map Prod.snd)) (untouched : ∀ pair ∈ pairs, pair.1.1 = "_meta" → pair.2 = pair.1)
      (renamed : ∀ pair ∈ pairs, pair.1.1 ≠ "_meta" → pair.2.1 = camelToSnake pair.1.1)
      (each : ∀ pair ∈ pairs, pair.1.1 ≠ "_meta" → Kept pair.1.2 pair.2.2) : Kept (.object fields) (.object others)

-- No two keys of an object become the same key.
inductive Apart : Json String σ → Prop where
  | scalar : Apart (.scalar s)
  | array (each : ∀ item ∈ items, Apart item) : Apart (.array items)
  | object (keys : (fields.map fun field => camelToSnake field.1).Nodup) (each : ∀ field ∈ fields, field.1 ≠ "_meta" → Apart field.2) :
      Apart (.object fields)

end Normalise

section Snake

theorem toLower_plain (c : Char) : c.toLower.isUpper = false := by
  delta Char.isUpper Char.toLower
  split <;> grind [UInt32.toNat_add,Char.toNat_val]

theorem snakeFrom_upper (prev : Option Char) {c : Char} (upper : c.isUpper = true) (rest : List Char) :
    snakeFrom prev (c :: rest) =
      (if (prev.any fun p => p.isLower || p.isDigit) || (prev.any Char.isUpper && rest.head?.any Char.isLower) then ['_'] else []) ++
        c.toLower :: snakeFrom (some c) rest := if_pos upper

theorem snakeFrom_other (prev : Option Char) {c : Char} (plain : c.isUpper = false) (rest : List Char) :
    snakeFrom prev (c :: rest) = c :: snakeFrom (some c) rest := if_neg (Bool.eq_false_iff.mp plain)

theorem snakeFrom_plain (prev : Option Char) (text : List Char) : ∀ c ∈ snakeFrom prev text, c.isUpper = false := by
  induction text generalizing prev with
  | nil => exact fun _ member => absurd member List.not_mem_nil
  | cons first rest ih =>
    intro c member
    cases upper : first.isUpper with
    | true =>
      rw [snakeFrom_upper prev upper] at member
      rcases List.mem_append.mp member with bar | later
      · split at bar
        · rw [List.mem_singleton.mp bar]
          rfl
        · cases bar
      · rcases List.mem_cons.mp later with rfl | inner
        · exact toLower_plain first
        · exact ih _ c inner
    | false =>
      rw [snakeFrom_other prev upper] at member
      rcases List.mem_cons.mp member with rfl | inner
      · exact upper
      · exact ih _ c inner

theorem snakeFrom_same (prev : Option Char) {text : List Char} (plain : ∀ c ∈ text, c.isUpper = false) : snakeFrom prev text = text := by
  induction text generalizing prev with
  | nil => rfl
  | cons c rest ih =>
    obtain ⟨here,later⟩ := List.forall_mem_cons.mp plain
    rw [snakeFrom_other prev here,ih _ later]

theorem camelToSnake_twice (key : String) : camelToSnake (camelToSnake key) = camelToSnake key := by
  unfold camelToSnake
  rw [String.toList_ofList,snakeFrom_same none (snakeFrom_plain none key.toList)]

theorem camelToSnake_meta : camelToSnake "_meta" = "_meta" := by
  decide

end Snake

section Fields
variable {σ : Type} {fields : List (String × Json String σ)}

def rename (field : String × Json String σ) : String × Json String σ :=
  if field.1 = "_meta" then field else (camelToSnake field.1,normalizeKeys field.2)

theorem normalizeItems_map (items : List (Json String σ)) : normalizeItems items = items.map normalizeKeys := by
  induction items with
  | nil => rfl
  | cons item rest ih =>
    show normalizeKeys item :: normalizeItems rest = _
    rw [ih]
    rfl

theorem normalizeFields_map (fields : List (String × Json String σ)) : normalizeFields fields = fields.map rename := by
  induction fields with
  | nil => rfl
  | cons field rest ih =>
    show rename field :: normalizeFields rest = _
    rw [ih]
    rfl

theorem normalize_array (items : List (Json String σ)) : normalizeKeys (.array items) = .array (items.map normalizeKeys) :=
  congrArg Json.array (normalizeItems_map items)

theorem normalize_object (fields : List (String × Json String σ)) : normalizeKeys (.object fields) = .object (collect (fields.map rename)) :=
  congrArg (fun fields => Json.object (collect fields)) (normalizeFields_map fields)

theorem rename_key (field : String × Json String σ) : (rename field).1 = camelToSnake field.1 := by
  unfold rename
  split
  · rename_i verbatim
    rw [verbatim,camelToSnake_meta]
  · rfl

theorem rename_other {field : String × Json String σ} (other : field.1 ≠ "_meta") : rename field = (camelToSnake field.1,normalizeKeys field.2) :=
  if_neg other

theorem rename_meta {field : String × Json String σ} (verbatim : field.1 = "_meta") : rename field = field := if_pos verbatim

theorem rename_keys (fields : List (String × Json String σ)) :
    (fields.map rename).map Prod.fst = fields.map fun field => camelToSnake field.1 := by
  rw [List.map_map]
  exact List.map_congr_left fun field _ => rename_key field

end Fields

section Results
variable {σ : Type}

theorem normalize_twice (value : Json String σ) : normalizeKeys (normalizeKeys value) = normalizeKeys value := by
  induction value using Json.tree with
  | scalar s => rfl
  | array items ih =>
    rw [normalize_array,normalize_array,List.map_map,Json.array.injEq]
    exact List.map_congr_left ih
  | object fields ih =>
    rw [normalize_object,normalize_object,Json.object.injEq]
    have fixed : ∀ field ∈ collect (fields.map rename), rename field = field := by
      intro field member
      obtain ⟨origin,inside,rfl⟩ := List.mem_map.mp (collect_sub member)
      by_cases verbatim : origin.1 = "_meta"
      · rw [rename_meta verbatim,rename_meta verbatim]
      · rw [rename_other verbatim]
        unfold rename
        split
        · rfl
        · rw [camelToSnake_twice,ih origin inside]
    rw [map_same_iff.mpr fixed]
    exact collect_same (collect_ascending _)

theorem kept_iff (value : Json String σ) : Kept value (normalizeKeys value) ↔ Apart value := by
  induction value using Json.tree with
  | scalar s => exact ⟨fun _ => .scalar,fun _ => .scalar⟩
  | array items ih =>
    rw [normalize_array]
    constructor
    · rintro ⟨⟩
      rename_i same each
      exact .array fun item member => (ih item member).mp (zip_map_iff.mp each item member)
    · rintro ⟨⟩
      rename_i each
      exact .array (List.length_map _).symm (zip_map_iff.mpr fun item member => (ih item member).mpr (each item member))
  | object fields ih =>
    rw [normalize_object]
    constructor
    · rintro ⟨⟩
      rename_i pairs untouched renamed each before after
      have long : (collect (fields.map rename)).length = (fields.map rename).length := by
        rw [after.length_eq,before,List.length_map,List.length_map,List.length_map]
      have keys := collect_nodup long
      refine .object (rename_keys fields ▸ keys) fun field member other => (ih field member).mp ?_
      rw [before] at member
      obtain ⟨pair,inside,rfl⟩ := List.mem_map.mp member
      -- The partner has the new key, and only this field has it.
      have partner := collect_sub (after.mem_iff.mpr (List.mem_map_of_mem inside))
      obtain ⟨origin,there,same⟩ := List.mem_map.mp partner
      have own : rename pair.1 ∈ fields.map rename := List.mem_map_of_mem (before ▸ member)
      have equal : rename pair.1 = pair.2 := List.inj_on_of_nodup_map keys own partner (by rw [rename_key,renamed pair inside other])
      have kept := each pair inside other
      rw [← equal,rename_other other] at kept
      exact kept
    · rintro ⟨⟩
      rename_i keys each
      refine .object (fields.map fun field => (field,rename field)) ?_ ?_ ?_ ?_ ?_
      · rw [List.map_map]
        exact (List.map_id fields).symm
      · rw [List.map_map]
        exact collect_perm ((rename_keys fields).symm ▸ keys)
      · intro pair member verbatim
        obtain ⟨field,inside,rfl⟩ := List.mem_map.mp member
        exact rename_meta verbatim
      · intro pair member other
        obtain ⟨field,inside,rfl⟩ := List.mem_map.mp member
        exact rename_key field
      · intro pair member other
        obtain ⟨field,inside,rfl⟩ := List.mem_map.mp member
        show Kept field.2 (rename field).2
        rw [rename_other other]
        exact (ih field inside).mpr (each field inside other)

-- What the normalisation promises of a value.
structure Lossless (value : Json String σ) : Prop where
  once : normalizeKeys (normalizeKeys value) = normalizeKeys value
  keys : ∀ key, camelToSnake (camelToSnake key) = camelToSnake key
  kept : Kept value (normalizeKeys value)

theorem lossless_iff (value : Json String σ) : Lossless value ↔ Apart value :=
  ⟨fun lossless => (kept_iff value).mp lossless.kept,
    fun apart => ⟨normalize_twice value,camelToSnake_twice,(kept_iff value).mpr apart⟩⟩

end Results

section Examples

def bothSpellings : Json String Nat := .object [("modelId",.scalar 1),("model_id",.scalar 2)]

-- The entry that stands later in the order of the keys wins.
theorem model_lost : normalizeKeys bothSpellings = .object [("model_id",.scalar 2)] ∧ ¬Lossless bothSpellings := by
  refine ⟨by rfl,fun lossless => ?_⟩
  have keys : (["modelId","model_id"].map camelToSnake).Nodup := by
    cases (kept_iff _).mp lossless.kept with
    | object keys each => exact keys
  exact absurd keys (by decide)

end Examples

end AlineaCopilot.CaseConvert

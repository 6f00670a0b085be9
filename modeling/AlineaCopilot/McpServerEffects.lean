import AlineaCopilot.McpServerStore
open AlineaCopilot.KeyedMaps AlineaCopilot.StatefulPrograms

namespace AlineaCopilot.McpServers

section Runs
variable (serde : Serde)

-- What a call does to the table, one entry of a batch being a request of its own.
inductive Request where
  | add (env : Env) (req : CreateMcpServerRequest)
  | entry (env : Env) (req : ImportMcpServerRequest)
  | edit (env : Env) (id : String) (req : UpdateMcpServerRequest)
  | delete (env : Env) (id : String)
  | toggle (env : Env) (id : String)

inductive Call where
  | add (env : Env) (req : CreateMcpServerRequest)
  | importAll (entries : List (Env × ImportMcpServerRequest))
  | edit (env : Env) (id : String) (req : UpdateMcpServerRequest)
  | delete (env : Env) (id : String)
  | toggle (env : Env) (id : String)

def Call.requests : Call → List Request
  | .add env req => [.add env req]
  | .importAll entries => entries.map fun entry => .entry entry.1 entry.2
  | .edit env id req => [.edit env id req]
  | .delete env id => [.delete env id]
  | .toggle env id => [.toggle env id]

def Request.program : Request → Service (Option McpServer)
  | .add env req => some <$> addServer serde env req
  | .entry env req => importServer serde env req
  | .edit env id req => some <$> editServer serde env id req
  | .delete env id => (fun _ => none) <$> deleteServer env id
  | .toggle env id => some <$> toggleServer serde env id

def Call.after (call : Call) (db : Database) : Database :=
  match call with
  | .add env req => (perform (addServer serde env req) db).2
  | .importAll entries => (perform (batchImport serde entries) db).2
  | .edit env id req => (perform (editServer serde env id req) db).2
  | .delete env id => (perform (deleteServer env id) db).2
  | .toggle env id => (perform (toggleServer serde env id) db).2

structure Move where
  before : Database
  request : Request
  answer : Except McpError (Option McpServer)
  after : Database

def moveOf (db : Database) (request : Request) : Move :=
  ⟨db,request,(perform (request.program serde) db).1,(perform (request.program serde) db).2⟩

-- A batch ends at the first entry that fails.
def movesOf : Database → List Request → List Move
  | _,[] => []
  | db,request :: rest =>
    moveOf serde db request :: match (moveOf serde db request).answer with
      | .ok _ => movesOf (moveOf serde db request).after rest
      | .error _ => []

def moves : Database → List Call → List Move
  | _,[] => []
  | db,call :: rest => movesOf serde db call.requests ++ moves (call.after serde db) rest

def lastOf (db : Database) (moves : List Move) : Database := (moves.getLast?.map Move.after).getD db

end Runs

section Statements
variable (serde : Serde)

def Request.adds : Request → Option (Env × CreateMcpServerRequest × Option Bool)
  | .add env req => some (env,req,none)
  | .entry env req => some (env,req.toCreateMcpServerRequest,req.enabled)
  | _ => none

-- The transport a request writes, if it writes any.
def Request.transport : Request → Option McpServerTransport
  | .add _ req => (normalizeTransport req.transport).toOption
  | .entry _ req => (normalizeTransport req.transport).toOption
  | .edit _ _ req => req.transport.bind fun transport => (normalizeTransport transport).toOption
  | _ => none

-- The requests that are there to set the flag of a row.
def Request.states (id name : String) : Request → Prop
  | .toggle _ id' => id' = id
  | .entry _ req => req.name = name ∧ req.enabled.isSome
  | _ => False

structure Sound (db : Database) : Prop where
  unique : ∀ i j row other, db.rows.lookup i = some row → db.rows.lookup j = some other → row.name = other.name → i = j
  stored : ∀ id row, db.rows.lookup id = some row → ∃ transport, db.written.lookup id = some transport ∧
    ∃ back, fromDb serde row.transportType row.transportConfig = .ok back ∧ transport.Same back

-- Fields that an edit does not name are as they were, the time of the last change aside.
structure EditedOnly (req : UpdateMcpServerRequest) (row row' : McpServerRow) : Prop where
  named : row'.name = row.name
  rest : row' =
    { row with
      description := row'.description, transportType := row'.transportType, transportConfig := row'.transportConfig,
      originalJson := row'.originalJson, builtin := row'.builtin, updatedAt := row'.updatedAt }
  description : req.description = none → row'.description = row.description
  transport : req.transport = none → row'.transportType = row.transportType ∧ row'.transportConfig = row.transportConfig
  originalJson : req.originalJson = none → row'.originalJson = row.originalJson
  builtin : req.builtin = none → row'.builtin = row.builtin

structure Holds (move : Move) : Prop where
  sound : Sound serde move.after
  ids : ∀ id row, move.before.rows.lookup id = some row → ∃ row', move.after.rows.lookup id = some row' ∧ row'.name = row.name
  added : ∀ env req flag server, move.request.adds = some (env,req,flag) → move.answer = .ok (some server) →
    (∃ row, move.after.rows.lookup server.id = some row ∧ row.name = req.name ∧ row.live = true) ∧
      ∀ id row, move.before.rows.lookup id = some row → row.name = req.name → server.id = id
  builtins : move.request.adds.isSome → ∀ id row, move.before.rows.lookup id = some row → row.builtin = true →
    move.after.rows.lookup id = some row
  flags : ∀ id row row', move.before.rows.lookup id = some row → move.after.rows.lookup id = some row' →
    row.live = true → row'.live = true → row'.enabled ≠ row.enabled → move.request.states id row.name
  edits : ∀ env id req, move.request = .edit env id req →
    (∀ other, other ≠ id → move.after.rows.lookup other = move.before.rows.lookup other) ∧
      ∀ row row', move.before.rows.lookup id = some row → move.after.rows.lookup id = some row' → EditedOnly req row row'

-- An addition, or an entry of an import that does not say `enabled`, that reaches a
-- live enabled row.
def Disables (move : Move) : Prop :=
  ∃ env req, move.request.adds = some (env,req,none) ∧ env.fails = false ∧ (normalizeTransport req.transport).toOption.isSome ∧
    ∃ id row, move.before.rows.lookup id = some row ∧ row.name = req.name ∧ row.live = true ∧ row.enabled = true ∧ row.builtin = false

end Statements

section Changes

def created (serde : Serde) (env : Env) (req : CreateMcpServerRequest) (transport : McpServerTransport) (enabled : Bool) : McpServerRow where
  name := req.name
  description := req.description
  enabled := enabled
  transportType := transport.transportType
  transportConfig := transport.toConfigJson serde
  tools := none
  lastTestStatus := "disconnected"
  lastConnected := none
  originalJson := req.originalJson
  builtin := req.builtin
  deletedAt := none
  createdAt := env.now
  updatedAt := env.now

def upserted (serde : Serde) (env : Env) (req : CreateMcpServerRequest) (transport : McpServerTransport) (enabled : Bool) (row : McpServerRow) : McpServerRow :=
  mergeUpdate env.now row
    { description := some req.description, enabled := some enabled, transportType := some transport.transportType,
      transportConfig := some (transport.toConfigJson serde), originalJson := some req.originalJson,
      builtin := some (row.builtin || req.builtin), deletedAt := some none }

def edited (serde : Serde) (env : Env) (req : UpdateMcpServerRequest) (transport : Option McpServerTransport) (row : McpServerRow) : McpServerRow :=
  mergeUpdate env.now row
    { name := req.name, description := req.description, transportType := transport.map (·.transportType),
      transportConfig := transport.map (·.toConfigJson serde), originalJson := req.originalJson, builtin := req.builtin }

-- All that a request can do: nothing, with no server as its answer, or one row is
-- written.
inductive Effect (serde : Serde) (db : Database) (request : Request) : Except McpError (Option McpServer) → Database → Prop where
  | nothing : (∀ server, answer ≠ .ok (some server)) → Effect serde db request answer db
  | creates : request.adds = some (env,req,flag) → normalizeTransport req.transport = .ok transport → findByNameAny req.name db = none →
      db.rows.lookup env.newId = none →
      Effect serde db request ((fromRow serde env.newId (created serde env req transport (flag.getD false))).map some)
        ⟨db.rows.insert env.newId (created serde env req transport (flag.getD false)),db.written.insert env.newId transport⟩
  | upserts {id : String} : request.adds = some (env,req,flag) → normalizeTransport req.transport = .ok transport → env.fails = false →
      db.rows.lookup id = some row → row.name = req.name → row.builtin = false →
      Effect serde db request ((fromRow serde id (upserted serde env req transport (flag.getD false) row)).map some)
        ⟨db.rows.insert id (upserted serde env req transport (flag.getD false) row),db.written.insert id transport⟩
  | edits {id : String} : request = .edit env id edit → db.rows.lookup id = some row → renames edit row = false →
      edit.transport.mapM normalizeTransport = .ok replaced →
      Effect serde db request ((fromRow serde id (edited serde env edit replaced row)).map some)
        ⟨db.rows.insert id (edited serde env edit replaced row),(replaced.map (db.written.insert id ·)).getD db.written⟩
  | deletes {id : String} : request = .delete env id → db.rows.lookup id = some row →
      Effect serde db request (.ok none)
        ⟨db.rows.insert id { row with enabled := false, deletedAt := some env.now, updatedAt := env.now },db.written⟩
  | toggles {id : String} : request = .toggle env id → db.rows.lookup id = some row →
      Effect serde db request ((fromRow serde id { row with enabled := !row.enabled, updatedAt := env.now }).map some)
        ⟨db.rows.insert id { row with enabled := !row.enabled, updatedAt := env.now },db.written⟩

end Changes

section Effects
variable {serde : Serde} {db : Database} {id other name : String} {row : McpServerRow}

theorem findByNameAny_some (found : findByNameAny name db = some (id,row)) : db.rows.lookup id = some row ∧ row.name = name := by
  obtain ⟨entry,inside,same⟩ := Option.map_eq_some_iff.mp found
  cases same
  refine ⟨(mem_entries_iff db.rows).mp (List.mem_of_find?_eq_some inside),?_⟩
  have holds := List.find?_some inside
  exact of_decide_eq_true holds

theorem findByNameAny_none (absent : findByNameAny name db = none) (found : db.rows.lookup id = some row) : row.name ≠ name := by
  intro same
  have away := List.find?_eq_none.mp (Option.map_eq_none_iff.mp absent) ⟨id,row⟩ ((mem_entries_iff db.rows).mpr found)
  exact away (decide_eq_true same)

theorem findById_some (found : findById id db = some row) : db.rows.lookup id = some row ∧ row.live = true :=
  Option.filter_eq_some_iff.mp found

theorem nameElsewhere_false
    (unique : ∀ i j row other, db.rows.lookup i = some row → db.rows.lookup j = some other → row.name = other.name → i = j)
    (found : db.rows.lookup id = some row) : nameElsewhere id row.name db = false := by
  refine List.any_eq_false.mpr fun entry member => ?_
  obtain ⟨other,row'⟩ := entry
  intro both
  obtain ⟨apart,same⟩ := of_decide_eq_true both
  exact apart (unique _ _ _ _ ((mem_entries_iff db.rows).mp member) found same)

theorem nameElsewhere_apart (free : nameElsewhere id name db = false) (found : db.rows.lookup other = some row) (same : row.name = name) :
    other = id := by
  by_contra apart
  exact List.any_eq_false.mp free ⟨other,row⟩ ((mem_entries_iff db.rows).mpr found) (decide_eq_true ⟨apart,same⟩)

theorem perform_returning (result : Except McpError α) : perform (returning result) db = (result,db) := by
  cases result <;> rfl

theorem perform_updateRow (found : db.rows.lookup id = some row) (env : Env) (params : UpdateMcpServerParams) :
    perform (updateRow env id params) db =
      if env.fails then (.error queryFailed,db)
      else if nameElsewhere id (mergeUpdate env.now row params).name db then
        (.error (nameTaken (mergeUpdate env.now row params).name),db)
      else (.ok (mergeUpdate env.now row params),{ db with rows := db.rows.insert id (mergeUpdate env.now row params) }) := by
  rw [updateRow,perform_bind,perform_get]
  simp only [findByIdAny,found]
  cases env.fails with
  | true => rfl
  | false =>
    rw [if_neg Bool.false_ne_true,if_neg Bool.false_ne_true]
    split <;> rfl

theorem updateRow_cases (found : db.rows.lookup id = some row) (env : Env) (params : UpdateMcpServerParams) :
    (∃ e, perform (updateRow env id params) db = (.error e,db)) ∨
      perform (updateRow env id params) db =
        (.ok (mergeUpdate env.now row params),{ db with rows := db.rows.insert id (mergeUpdate env.now row params) }) := by
  rw [perform_updateRow found]
  cases env.fails with
  | true => exact .inl ⟨_,rfl⟩
  | false =>
    rw [if_neg Bool.false_ne_true]
    split
    · exact .inl ⟨_,rfl⟩
    · exact .inr rfl

variable {env : Env} {req : CreateMcpServerRequest} {transport : McpServerTransport} {enabled : Bool}

theorem perform_upsert_reserved (found : findByNameAny req.name db = some (id,row)) (reserved : row.builtin = true) :
    perform (upsertServer serde env req transport enabled) db = (.error (nameReserved req.name),db) := by
  unfold upsertServer
  rw [perform_bind,perform_get]
  dsimp only
  rw [found]
  dsimp only
  rw [if_pos reserved,perform_throw]

theorem perform_upsert_existing (found : findByNameAny req.name db = some (id,row)) (free : row.builtin = false)
    (alone : nameElsewhere id row.name db = false) :
    perform (upsertServer serde env req transport enabled) db =
      if env.fails then (.error queryFailed,db)
      else (fromRow serde id (upserted serde env req transport enabled row),
        ⟨db.rows.insert id (upserted serde env req transport enabled row),db.written.insert id transport⟩) := by
  unfold upsertServer
  rw [perform_bind,perform_get]
  dsimp only
  rw [found]
  dsimp only
  rw [if_neg (by rw [free]; exact Bool.false_ne_true),perform_bind,perform_updateRow (findByNameAny_some found).1]
  cases env.fails with
  | true => rfl
  | false =>
    rw [if_neg Bool.false_ne_true,if_neg Bool.false_ne_true,if_neg (by show ¬nameElsewhere id row.name db = true; rw [alone]; exact Bool.false_ne_true)]
    dsimp only
    rw [perform_bind,remember,perform_modify]
    dsimp only
    rw [perform_returning]
    rfl

theorem perform_upsert_new (absent : findByNameAny req.name db = none) :
    perform (upsertServer serde env req transport enabled) db =
      if env.fails then (.error queryFailed,db)
      else if (db.rows.lookup env.newId).isSome then (.error queryFailed,db)
      else (fromRow serde env.newId (created serde env req transport enabled),
        ⟨db.rows.insert env.newId (created serde env req transport enabled),db.written.insert env.newId transport⟩) := by
  unfold upsertServer
  rw [perform_bind,perform_get]
  dsimp only
  rw [absent]
  dsimp only
  rw [perform_bind,createRow,perform_bind,perform_get]
  dsimp only
  rw [absent]
  cases env.fails with
  | true => rfl
  | false =>
    rw [if_neg Bool.false_ne_true,if_neg Bool.false_ne_true,Option.isSome_none,if_neg Bool.false_ne_true,findByIdAny]
    cases (AList.lookup env.newId db.rows).isSome with
    | true => rfl
    | false =>
      rw [if_neg Bool.false_ne_true,if_neg Bool.false_ne_true,perform_bind,perform_set]
      dsimp only
      rw [perform_pure]
      dsimp only
      rw [perform_bind,remember,perform_modify]
      dsimp only
      rw [perform_returning]
      rfl

theorem perform_map (f : α → β) (program : Service α) :
    perform (f <$> program) db = ((perform program db).1.map f,(perform program db).2) := by
  show perform (program >>= fun value => pure (f value)) db = _
  rw [perform_bind]
  rcases perform program db with ⟨_ | _,_⟩ <;> rfl

theorem upsert_effect {request : Request} {flag : Option Bool} (sound : Sound serde db) (adds : request.adds = some (env,req,flag))
    (normal : normalizeTransport req.transport = .ok transport) :
    Effect serde db request ((perform (upsertServer serde env req transport (flag.getD false)) db).1.map some)
      (perform (upsertServer serde env req transport (flag.getD false)) db).2 := by
  cases found : findByNameAny req.name db with
  | none =>
    rw [perform_upsert_new found]
    cases env.fails with
    | true => exact .nothing fun server => by simp [Except.map]
    | false =>
      rw [if_neg Bool.false_ne_true]
      cases there : db.rows.lookup env.newId with
      | some row => exact .nothing fun server => by simp [Except.map]
      | none => exact .creates adds normal found there
  | some entry =>
    obtain ⟨id,row⟩ := entry
    obtain ⟨present,named⟩ := findByNameAny_some found
    cases reserved : row.builtin with
    | true =>
      rw [perform_upsert_reserved found reserved]
      exact .nothing fun server => by simp [Except.map]
    | false =>
      rw [perform_upsert_existing found reserved (nameElsewhere_false sound.unique present)]
      cases fails : env.fails with
      | true => exact .nothing fun server => by simp [Except.map]
      | false => exact .upserts adds normal fails present named reserved

theorem after_pure (f : α → β) (program : Service α) :
    (perform (program >>= fun value => pure (f value)) db).2 = (perform program db).2 := by
  rw [perform_bind]
  rcases perform program db with ⟨_ | _,_⟩ <;> rfl

theorem perform_get_bind (next : Database → Service α) : perform (get >>= next) db = perform (next db) db := by
  rw [perform_bind,perform_get]

theorem perform_returning_bind (result : Except McpError α) (next : α → Service β) :
    perform (returning result >>= next) db = match result with
      | .ok value => perform (next value) db
      | .error e => (.error e,db) := by
  rw [perform_bind,perform_returning]
  cases result <;> rfl

theorem add_effect (flag : Option Bool) (request : Request) (sound : Sound serde db) (adds : request.adds = some (env,req,flag)) :
    Effect serde db request
      ((perform (returning (normalizeTransport req.transport) >>= fun transport =>
        upsertServer serde env req transport (flag.getD false)) db).1.map some)
      (perform (returning (normalizeTransport req.transport) >>= fun transport =>
        upsertServer serde env req transport (flag.getD false)) db).2 := by
  rw [perform_returning_bind]
  cases normal : normalizeTransport req.transport with
  | error e => exact .nothing fun server => by simp [Except.map]
  | ok transport => exact upsert_effect sound adds normal

theorem edited_name {edit : UpdateMcpServerRequest} (replaced : Option McpServerTransport) (kept : renames edit row = false) :
    (edited serde env edit replaced row).name = row.name := by
  show edit.name.getD row.name = row.name
  cases named : edit.name with
  | none => rfl
  | some name =>
    rw [renames,named] at kept
    exact of_not_not (of_decide_eq_false kept)

theorem request_effect (sound : Sound serde db) (request : Request) :
    Effect serde db request (moveOf serde db request).answer (moveOf serde db request).after := by
  unfold moveOf Request.program
  cases request with
  | add env req =>
    dsimp only
    rw [perform_map]
    exact add_effect none (.add env req) sound rfl
  | entry env req =>
    dsimp only
    rw [importServer,perform_get_bind]
    cases ((findByNameAny req.name db).map (·.2.builtin)).getD false with
    | true => exact .nothing fun server => by simp
    | false =>
      rw [if_neg Bool.false_ne_true]
      have effect := add_effect req.enabled (.entry env req) sound rfl
      have mapped : (returning (normalizeTransport req.transport) >>= fun transport =>
          upsertServer serde env req.toCreateMcpServerRequest transport (req.enabled.getD false) >>= fun server => pure (some server)) =
          some <$> (returning (normalizeTransport req.transport) >>= fun transport =>
            upsertServer serde env req.toCreateMcpServerRequest transport (req.enabled.getD false)) := by
        simp only [map_bind,bind_pure_comp]
      rw [mapped,perform_map]
      exact effect
  | edit env id edit =>
    dsimp only
    rw [perform_map,editServer,perform_get_bind]
    cases found : findById id db with
    | none => exact .nothing fun server => by simp [Except.map]
    | some row =>
      dsimp only
      cases named : renames edit row with
      | true => exact .nothing fun server => by simp [Except.map]
      | false =>
        rw [if_neg Bool.false_ne_true]
        cases reservedFor id edit db with
        | some other => exact .nothing fun server => by simp [Except.map]
        | none =>
          dsimp only
          rw [perform_returning_bind]
          cases normal : edit.transport.mapM normalizeTransport with
          | error e => exact .nothing fun server => by simp [Except.map]
          | ok replaced =>
            dsimp only
            have present := (findById_some found).1
            rcases updateRow_cases present env
              { name := edit.name, description := edit.description, transportType := replaced.map (·.transportType),
                transportConfig := replaced.map (·.toConfigJson serde), originalJson := edit.originalJson, builtin := edit.builtin }
              with ⟨e,failed⟩ | updated
            · rw [perform_bind,failed]
              exact .nothing fun server => by simp [Except.map]
            · rw [perform_bind,updated]
              dsimp only
              have effect : Effect serde db (.edit env id edit) _ _ := .edits rfl present named normal
              cases replaced with
              | none =>
                simp only [rememberEdit,perform_bind,perform_pure,perform_returning]
                exact effect
              | some transport =>
                simp only [rememberEdit,remember,perform_bind,perform_modify,perform_returning]
                exact effect
  | delete env id =>
    dsimp only
    rw [perform_map,deleteServer,perform_get_bind]
    cases found : findById id db with
    | none => exact .nothing fun server => by simp [Except.map]
    | some row =>
      dsimp only
      have present := (findById_some found).1
      rw [perform_bind,deleteRow,perform_get_bind,found]
      cases env.fails with
      | true => exact .nothing fun server => by simp [Except.map]
      | false => exact .deletes rfl present
  | toggle env id =>
    dsimp only
    rw [perform_map,toggleServer,perform_get_bind]
    cases found : findById id db with
    | none => exact .nothing fun server => by simp [Except.map]
    | some row =>
      dsimp only
      have present := (findById_some found).1
      rcases updateRow_cases present env { enabled := some (!row.enabled) } with ⟨e,failed⟩ | updated
      · rw [perform_bind,failed]
        exact .nothing fun server => by simp [Except.map]
      · rw [perform_bind,updated]
        dsimp only
        rw [perform_returning]
        exact .toggles rfl present

end Effects

end AlineaCopilot.McpServers

import AlineaCopilot.McpServerEffects
open AlineaCopilot.KeyedMaps AlineaCopilot.StatefulPrograms

namespace AlineaCopilot.McpServers

section Invariants
variable {serde : Serde} {db after : Database} {env : Env} {req : CreateMcpServerRequest} {flag : Option Bool}
  {transport : McpServerTransport} {answer : Except McpError (Option McpServer)}

def Readable (serde : Serde) (request : Request) : Prop :=
  ∀ transport, request.transport = some transport → serde.fromStr (serde.toString transport.config) = some transport.config

theorem fromDb_written {transport : McpServerTransport}
    (reads : serde.fromStr (serde.toString transport.config) = some transport.config) :
    ∃ back, fromDb serde transport.transportType (transport.toConfigJson serde) = .ok back ∧ transport.Same back := by
  rw [fromDb,McpServerTransport.toConfigJson,reads]
  exact fromValue_config transport

theorem fromRow_ok {id : String} {row : McpServerRow} {server : McpServer} (read : fromRow serde id row = .ok server) : server.id = id := by
  unfold fromRow at read
  cases parsed : fromDb serde row.transportType row.transportConfig with
  | error e =>
    rw [parsed] at read
    cases read
  | ok transport =>
    rw [parsed] at read
    cases listed : readTools serde row.tools with
    | error e =>
      rw [listed] at read
      cases read
    | ok tools =>
      rw [listed] at read
      cases read
      rfl

-- One row is written under a name it had or that no row has, with its transport remembered.
theorem Sound.writes {id : String} {row : McpServerRow} {written : KeyedMap String McpServerTransport} (sound : Sound serde db)
    (fresh : ∀ other row', db.rows.lookup other = some row' → row'.name = row.name → other = id)
    (known : ∃ transport, written.lookup id = some transport ∧
      ∃ back, fromDb serde row.transportType row.transportConfig = .ok back ∧ transport.Same back)
    (rest : ∀ other, other ≠ id → written.lookup other = db.written.lookup other) :
    Sound serde ⟨db.rows.insert id row,written⟩ := by
  constructor
  · intro i j first second found there same
    rw [lookup_insert_eq] at found there
    by_cases left : i = id
    · rw [if_pos left] at found
      cases found
      by_cases right : j = id
      · rw [left,right]
      · rw [if_neg right] at there
        exact left.trans (fresh j second there same.symm).symm
    · rw [if_neg left] at found
      by_cases right : j = id
      · rw [if_pos right] at there
        cases there
        exact (fresh i first found same).trans right.symm
      · rw [if_neg right] at there
        exact sound.unique i j first second found there same
  · intro other row' found
    rw [lookup_insert_eq] at found
    by_cases here : other = id
    · rw [if_pos here] at found
      cases found
      exact here ▸ known
    · rw [if_neg here] at found
      rw [rest other here]
      exact sound.stored other row' found

theorem Sound.kept (sound : Sound serde db) {id : String} (found : db.rows.lookup id = some row) (named : row'.name = row.name)
    (columns : row'.transportType = row.transportType ∧ row'.transportConfig = row.transportConfig) :
    Sound serde ⟨db.rows.insert id row',db.written⟩ := by
  refine sound.writes (fun other there present same => ?_) ?_ fun _ _ => rfl
  · exact sound.unique other id there row present found (same.trans named)
  · rw [columns.1,columns.2]
    exact sound.stored id row found

theorem written_of_adds {request : Request} {flag : Option Bool} (adds : request.adds = some (env,req,flag))
    (normal : normalizeTransport req.transport = .ok transport) : request.transport = some transport := by
  cases request with
  | add env' req' =>
    cases adds
    rw [Request.transport,normal]
    rfl
  | entry env' req' =>
    cases adds
    rw [Request.transport,normal]
    rfl
  | edit _ _ _ | delete _ _ | toggle _ _ => cases adds

theorem written_of_edit {id : String} {edit : UpdateMcpServerRequest} {request : Request} (asked : request = .edit env id edit)
    (normal : edit.transport.mapM normalizeTransport = .ok (some transport)) : request.transport = some transport := by
  subst asked
  rw [Request.transport]
  cases named : edit.transport with
  | none =>
    rw [named] at normal
    cases normal
  | some first =>
    rw [named] at normal
    cases normalized : normalizeTransport first with
    | error e =>
      rw [Option.mapM_some,normalized] at normal
      cases normal
    | ok second =>
      rw [Option.mapM_some,normalized] at normal
      cases normal
      rw [Option.bind_some,normalized]
      rfl

theorem effect_sound {request : Request} (sound : Sound serde db) (readable : Readable serde request)
    (effect : Effect serde db request answer after) : Sound serde after := by
  cases effect with
  | nothing _ => exact sound
  | @creates env req flag transport adds normal absent new =>
    refine sound.writes (fun other row found same => absurd same (findByNameAny_none absent found)) ?_ fun other apart => ?_
    · refine ⟨transport,AList.lookup_insert _,fromDb_written (readable transport ?_)⟩
      exact written_of_adds adds normal
    · exact AList.lookup_insert_ne apart
  | @upserts env req flag transport row id adds normal fails present named reserved =>
    refine sound.writes (fun other row' found same => ?_) ?_ fun other apart => ?_
    · exact sound.unique other id row' row found present same
    · refine ⟨transport,AList.lookup_insert _,fromDb_written (readable transport ?_)⟩
      exact written_of_adds adds normal
    · exact AList.lookup_insert_ne apart
  | @edits env edit row replaced id asked present named normal =>
    cases replaced with
    | none => exact sound.kept present (edited_name _ named) ⟨rfl,rfl⟩
    | some transport =>
      refine sound.writes (fun other row' found same => ?_) ?_ fun other apart => ?_
      · exact sound.unique other id row' row found present (same.trans (edited_name _ named))
      · refine ⟨transport,AList.lookup_insert _,fromDb_written (readable transport ?_)⟩
        exact written_of_edit asked normal
      · exact AList.lookup_insert_ne apart
  | deletes _ present => exact sound.kept present rfl ⟨rfl,rfl⟩
  | toggles _ present => exact sound.kept present rfl ⟨rfl,rfl⟩

theorem ids_kept {id : String} {row' : McpServerRow} (held : ∀ old, db.rows.lookup id = some old → row'.name = old.name) (other : String)
    (row : McpServerRow) (found : db.rows.lookup other = some row) :
    ∃ row'', (db.rows.insert id row').lookup other = some row'' ∧ row''.name = row.name := by
  rw [lookup_insert_eq]
  by_cases here : other = id
  · subst here
    exact ⟨row',if_pos rfl,held row found⟩
  · exact ⟨row,(if_neg here).trans found,rfl⟩

theorem flags_kept {id : String} {row' : McpServerRow} (allowed : String → String → Prop)
    (held : ∀ old, db.rows.lookup id = some old → old.live = true → row'.live = true → row'.enabled ≠ old.enabled → allowed id old.name)
    (other : String) (row row'' : McpServerRow) (found : db.rows.lookup other = some row)
    (after : (db.rows.insert id row').lookup other = some row'') (live : row.live = true) (live' : row''.live = true)
    (moved : row''.enabled ≠ row.enabled) : allowed other row.name := by
  rw [lookup_insert_eq] at after
  by_cases here : other = id
  · subst here
    rw [if_pos rfl] at after
    cases after
    exact held row found live live' moved
  · rw [if_neg here] at after
    cases found.symm.trans after
    exact absurd rfl moved

theorem answered_row (db : Database) {id : String} {row' : McpServerRow} {name : String} {server : McpServer} (named : row'.name = name) (live : row'.live = true)
    (answered : (fromRow serde id row').map some = .ok (some server)) :
    server.id = id ∧ ∃ row, (db.rows.insert id row').lookup server.id = some row ∧ row.name = name ∧ row.live = true := by
  cases read : fromRow serde id row' with
  | error e =>
    rw [read] at answered
    cases answered
  | ok first =>
    rw [read] at answered
    cases answered
    rw [fromRow_ok read]
    exact ⟨rfl,row',AList.lookup_insert _,named,live⟩

theorem states_of_adds {id name : String} {request : Request} (adds : request.adds = some (env,req,some stated)) (named : name = req.name) :
    request.states id name := by
  cases request with
  | entry env' req' =>
    simp only [Request.adds,Option.some.injEq,Prod.mk.injEq] at adds
    obtain ⟨-,rfl,said⟩ := adds
    exact ⟨named.symm,Option.isSome_iff_exists.mpr ⟨stated,said⟩⟩
  | add _ _ | edit _ _ _ | delete _ _ | toggle _ _ => cases adds

theorem unnamed_adds {request : Request} (adds : request.adds = some (env,req,flag)) : ∀ env' id edit, request ≠ .edit env' id edit := by
  rintro env' id edit rfl
  cases adds

theorem edited_only {edit : UpdateMcpServerRequest} {row : McpServerRow} {replaced : Option McpServerTransport}
    (named : renames edit row = false) (normal : edit.transport.mapM normalizeTransport = .ok replaced) :
    EditedOnly edit row (edited serde env edit replaced row) := by
  have kept : (edited serde env edit replaced row).name = row.name := edited_name replaced named
  refine ⟨kept,?_,fun none => ?_,fun none => ?_,fun none => ?_,fun none => ?_⟩
  · unfold edited mergeUpdate at kept ⊢
    dsimp only at kept ⊢
    rw [kept]
    rfl
  · show edit.description.getD row.description = _
    rw [none]
    rfl
  · rw [none] at normal
    cases normal
    exact ⟨rfl,rfl⟩
  · show edit.originalJson.getD row.originalJson = _
    rw [none]
    rfl
  · show edit.builtin.getD row.builtin = _
    rw [none]
    rfl

theorem effect_holds {request : Request} (sound : Sound serde db) (readable : Readable serde request)
    (effect : Effect serde db request answer after) (spared : ¬Disables ⟨db,request,answer,after⟩) :
    Holds serde ⟨db,request,answer,after⟩ := by
  have sound' := effect_sound sound readable effect
  cases effect with
  | nothing unanswered =>
    refine ⟨sound',fun id row found => ⟨row,found,rfl⟩,fun _ _ _ server _ answered => absurd answered (unanswered server),
      fun _ _ _ found _ => found,fun _ row row' found found' _ _ moved => ?_,fun _ _ _ _ => ⟨fun _ _ => rfl,fun row row' found found' => ?_⟩⟩
    · cases found.symm.trans found'
      exact absurd rfl moved
    · cases found.symm.trans found'
      exact ⟨rfl,rfl,fun _ => rfl,fun _ => ⟨rfl,rfl⟩,fun _ => rfl,fun _ => rfl⟩
  | @creates env req flag transport adds normal absent new =>
    have none_held : ∀ old, db.rows.lookup env.newId = some old → False := fun old found => by
      rw [new] at found
      cases found
    refine ⟨sound',?_,?_,?_,?_,fun env' id edit asked => absurd asked (unnamed_adds adds env' id edit)⟩
    · exact ids_kept fun old found => (none_held old found).elim
    · intro env' req' flag' server adds' answered
      cases adds.symm.trans adds'
      obtain ⟨here,there⟩ := answered_row db rfl rfl answered
      exact ⟨there,fun id row found same => absurd same (findByNameAny_none absent found)⟩
    · intro _ id row found _
      refine (AList.lookup_insert_ne ?_).trans found
      rintro rfl
      exact none_held row found
    · exact flags_kept (fun id name => request.states id name) fun old found => (none_held old found).elim
  | @upserts env req flag transport row id adds normal fails present named reserved =>
    refine ⟨sound',?_,?_,?_,?_,fun env' id edit asked => absurd asked (unnamed_adds adds env' id edit)⟩
    · refine ids_kept fun old found => ?_
      cases present.symm.trans found
      rfl
    · intro env' req' flag' server adds' answered
      cases adds.symm.trans adds'
      have kept : (upserted serde env req transport (flag.getD false) row).name = req.name := named
      obtain ⟨here,there⟩ := answered_row db kept rfl answered
      exact ⟨there,fun other row' found same => here.trans (sound.unique id other row row' present found (named.trans same.symm))⟩
    · intro _ other row' found builtin
      refine (AList.lookup_insert_ne ?_).trans found
      rintro rfl
      cases present.symm.trans found
      exact absurd builtin (by rw [reserved]; exact Bool.false_ne_true)
    · refine flags_kept (fun id name => request.states id name) fun old found live _ moved => ?_
      cases present.symm.trans found
      cases flag with
      | some stated => exact states_of_adds adds named
      | none =>
        refine absurd ⟨env,req,adds,fails,?_,id,row,present,named,live,?_,reserved⟩ spared
        · rw [normal]
          rfl
        · exact Bool.of_not_eq_false fun off => moved off.symm
  | @edits env edit row replaced id asked present named normal =>
    subst asked
    refine ⟨sound',?_,fun _ _ _ _ adds => (Option.some_ne_none _ adds.symm).elim,fun adds => (Bool.false_ne_true adds).elim,?_,?_⟩
    · refine ids_kept fun old found => ?_
      cases present.symm.trans found
      exact edited_name _ named
    · refine flags_kept (fun id name => (Request.edit env id edit).states id name) fun old found _ _ moved => ?_
      cases present.symm.trans found
      exact absurd rfl moved
    · intro env' id' edit' asked
      cases asked
      refine ⟨fun other apart => AList.lookup_insert_ne apart,fun first second found found' => ?_⟩
      cases present.symm.trans found
      cases (AList.lookup_insert _).symm.trans found'
      exact edited_only named normal
  | @deletes env row id asked present =>
    subst asked
    refine ⟨sound',?_,fun _ _ _ _ adds => (Option.some_ne_none _ adds.symm).elim,fun adds => (Bool.false_ne_true adds).elim,?_,?_⟩
    · refine ids_kept fun old found => ?_
      cases present.symm.trans found
      rfl
    · refine flags_kept (fun id' name => (Request.delete env id).states id' name) fun old _ _ live _ => ?_
      cases live
    · rintro _ _ _ asked
      cases asked
  | @toggles env row id asked present =>
    subst asked
    refine ⟨sound',?_,fun _ _ _ _ adds => (Option.some_ne_none _ adds.symm).elim,fun adds => (Bool.false_ne_true adds).elim,?_,?_⟩
    · refine ids_kept fun old found => ?_
      cases present.symm.trans found
      rfl
    · exact flags_kept (fun id' name => (Request.toggle env id).states id' name) fun old _ _ _ _ => rfl
    · rintro _ _ _ asked
      cases asked

theorem unstated {id name : String} {request : Request} (adds : request.adds = some (env,req,none)) : ¬request.states id name := by
  cases request with
  | entry env' req' =>
    simp only [Request.adds,Option.some.injEq,Prod.mk.injEq] at adds
    rintro ⟨-,said⟩
    rw [adds.2.2] at said
    cases said
  | add _ _ | edit _ _ _ | delete _ _ => exact fun states => states
  | toggle _ _ => cases adds

theorem adds_after {id : String} {row : McpServerRow} {request : Request} (adds : request.adds = some (env,req,none))
    (normal : normalizeTransport req.transport = .ok transport) (found : findByNameAny req.name db = some (id,row)) (free : row.builtin = false) :
    (moveOf serde db request).after = (perform (upsertServer serde env req transport false) db).2 := by
  unfold moveOf Request.program
  cases request with
  | add env' req' =>
    cases adds
    dsimp only
    rw [perform_map,addServer,perform_returning_bind,normal]
  | entry env' req' =>
    simp only [Request.adds,Option.some.injEq,Prod.mk.injEq] at adds
    obtain ⟨rfl,rfl,unsaid⟩ := adds
    dsimp only
    rw [importServer,perform_get_bind,found]
    dsimp only [Option.map_some,Option.getD_some]
    rw [if_neg (by rw [free]; exact Bool.false_ne_true),perform_returning_bind,normal,unsaid]
    exact after_pure some _
  | edit _ _ _ | delete _ _ | toggle _ _ => cases adds

-- A live enabled row that such a request reaches is disabled by it.
theorem disabled_flags {request : Request} (sound : Sound serde db) (disables : Disables (moveOf serde db request)) :
    ¬Holds serde (moveOf serde db request) := by
  intro holds
  obtain ⟨env,req,adds,fine,normal,id,row,present,named,live,enabled,free⟩ := disables
  have adds : request.adds = some (env,req,none) := adds
  obtain ⟨transport,normal⟩ : ∃ transport, normalizeTransport req.transport = .ok transport := by
    cases normalized : normalizeTransport req.transport with
    | ok transport => exact ⟨transport,rfl⟩
    | error e =>
      rw [normalized] at normal
      cases normal
  have found : findByNameAny req.name db = some (id,row) := by
    cases found : findByNameAny req.name db with
    | none => exact absurd named (findByNameAny_none found present)
    | some entry =>
      obtain ⟨other,row'⟩ := entry
      obtain ⟨present',named'⟩ := findByNameAny_some found
      cases sound.unique id other row row' present present' (named.trans named'.symm)
      cases present.symm.trans present'
      rfl
  have after : (moveOf serde db request).after.rows.lookup id = some (upserted serde env req transport false row) := by
    rw [adds_after adds normal found free,perform_upsert_existing found free (nameElsewhere_false sound.unique present),fine,
      if_neg Bool.false_ne_true]
    exact AList.lookup_insert _
  exact unstated adds (holds.flags id row _ present after live rfl (by rw [enabled]; exact Bool.false_ne_true))

theorem move_holds_iff {request : Request} (sound : Sound serde db) (readable : Readable serde request) :
    Holds serde (moveOf serde db request) ↔ ¬Disables (moveOf serde db request) :=
  ⟨fun holds disables => disabled_flags sound disables holds,effect_holds sound readable (request_effect sound request)⟩

end Invariants

section Sequences
variable {serde : Serde} {db : Database}

theorem lastOf_cons (db : Database) (move : Move) (rest : List Move) : lastOf db (move :: rest) = lastOf move.after rest := by
  unfold lastOf
  rw [List.getLast?_cons]
  cases rest.getLast? with
  | none => rfl
  | some last => rfl

theorem movesOf_cons (db : Database) (request : Request) (rest : List Request) :
    movesOf serde db (request :: rest) = moveOf serde db request :: match (moveOf serde db request).answer with
      | .ok _ => movesOf serde (moveOf serde db request).after rest
      | .error _ => [] := rfl

theorem movesOf_sound {requests : List Request} (sound : Sound serde db) (readable : ∀ request ∈ requests, Readable serde request) :
    Sound serde (lastOf db (movesOf serde db requests)) ∧
      ∀ move ∈ movesOf serde db requests, Holds serde move ↔ ¬Disables move := by
  induction requests generalizing db with
  | nil => exact ⟨sound,fun _ inside => absurd inside List.not_mem_nil⟩
  | cons request rest ih =>
    rw [List.forall_mem_cons] at readable
    have first := move_holds_iff sound readable.1
    have after := effect_sound sound readable.1 (request_effect sound request)
    rw [movesOf_cons,lastOf_cons]
    split
    · obtain ⟨last,later⟩ := ih after readable.2
      exact ⟨last,List.forall_mem_cons.mpr ⟨first,later⟩⟩
    · exact ⟨after,List.forall_mem_cons.mpr ⟨first,fun _ inside => absurd inside List.not_mem_nil⟩⟩

-- The requests of a batch, up to the first that fails, do what the call does.
theorem batch_after (entries : List (Env × ImportMcpServerRequest)) (db : Database) :
    lastOf db (movesOf serde db (entries.map fun entry => .entry entry.1 entry.2)) = (perform (batchImport serde entries) db).2 := by
  have listed : (perform (batchImport serde entries) db).2 =
      (perform (entries.mapM fun entry => importServer serde entry.1 entry.2) db).2 := by
    exact after_pure _ _
  rw [listed]
  clear listed
  induction entries generalizing db with
  | nil => rfl
  | cons entry rest ih =>
    obtain ⟨env,req⟩ := entry
    rw [List.map_cons,movesOf_cons,lastOf_cons,List.mapM_cons,perform_bind]
    unfold moveOf Request.program
    dsimp only
    rcases perform (importServer serde env req) db with ⟨e | server,middle⟩
    · rfl
    · exact (ih middle).trans (after_pure _ _).symm

theorem single_after (request : Request) (db : Database) :
    lastOf db (movesOf serde db [request]) = (perform (request.program serde) db).2 := by
  rw [movesOf_cons,lastOf_cons]
  split <;> rfl

theorem call_after (call : Call) (db : Database) : lastOf db (movesOf serde db call.requests) = call.after serde db := by
  cases call with
  | importAll entries => exact batch_after entries db
  | add env req =>
    rw [Call.requests,single_after,Request.program,perform_map]
    rfl
  | edit env id req =>
    rw [Call.requests,single_after,Request.program,perform_map]
    rfl
  | delete env id =>
    rw [Call.requests,single_after,Request.program,perform_map]
    rfl
  | toggle env id =>
    rw [Call.requests,single_after,Request.program,perform_map]
    rfl

end Sequences

-- Every call in turn, from any sound table. The one thing that goes wrong is that an
-- addition, or an imported entry that is silent about it, disables a live row.
theorem store_kept_iff {serde : Serde} {start : Database} {calls : List Call} (sound : Sound serde start)
    (readable : ∀ call ∈ calls, ∀ request ∈ call.requests, Readable serde request) :
    (∀ move ∈ moves serde start calls, Holds serde move) ↔ ∀ move ∈ moves serde start calls, ¬Disables move := by
  have each : ∀ move ∈ moves serde start calls, Holds serde move ↔ ¬Disables move := by
    induction calls generalizing start with
    | nil => exact fun _ inside => absurd inside List.not_mem_nil
    | cons call rest ih =>
      rw [List.forall_mem_cons] at readable
      obtain ⟨last,first⟩ := movesOf_sound sound readable.1
      rw [call_after] at last
      rw [moves]
      exact List.forall_mem_append.mpr ⟨first,ih last readable.2⟩
  exact ⟨fun holds move inside => (each move inside).mp (holds move inside),
    fun spared move inside => (each move inside).mpr (spared move inside)⟩

section Search

def searchTransport : McpServerTransport := .sse "https://search" ∅

-- A reader and a writer that know the configuration of this one transport.
def searchSerde : Serde where
  fromStr _ := some searchTransport.config
  toString _ := "\x7b\"url\":\"https://search\",\"headers\":\x7b\x7d\x7d"
  toStringPretty _ := "\x7b\"url\":\"https://search\",\"headers\":\x7b\x7d\x7d"

def emptyDatabase : Database := ⟨∅,∅⟩

def addSearch : Call := .add ⟨"mcp_1",1,false⟩ ⟨"search",none,searchTransport,none,false⟩

def toggleSearch : Call := .toggle ⟨"mcp_2",2,false⟩ "mcp_1"

theorem store_kept_search :
    (moves searchSerde emptyDatabase [addSearch,toggleSearch]).length = 2 ∧
      ∀ move ∈ moves searchSerde emptyDatabase [addSearch,toggleSearch], Holds searchSerde move := by
  have sound : Sound searchSerde emptyDatabase := by
    constructor
    · intro _ _ _ _ found
      cases found
    · intro _ _ found
      cases found
  have readable : ∀ call ∈ [addSearch,toggleSearch], ∀ request ∈ call.requests, Readable searchSerde request := by
    refine List.forall_mem_cons.mpr ⟨List.forall_mem_singleton.mpr ?_,List.forall_mem_singleton.mpr (List.forall_mem_singleton.mpr ?_)⟩
    · intro transport written
      cases written
      rfl
    · intro transport written
      cases written
  refine ⟨rfl,(store_kept_iff sound readable).mpr ?_⟩
  have whole : moves searchSerde emptyDatabase [addSearch,toggleSearch] =
      [moveOf searchSerde emptyDatabase (.add ⟨"mcp_1",1,false⟩ ⟨"search",none,searchTransport,none,false⟩),
        moveOf searchSerde (addSearch.after searchSerde emptyDatabase) (.toggle ⟨"mcp_2",2,false⟩ "mcp_1")] := rfl
  rw [whole]
  refine List.forall_mem_cons.mpr ⟨?_,List.forall_mem_singleton.mpr ?_⟩
  · rintro ⟨_,_,_,_,_,_,_,present,_⟩
    cases present
  · rintro ⟨_,_,adds,_⟩
    cases adds

-- The server is switched on and then added once more under its name.
theorem readding_disables :
    ((toggleSearch.after searchSerde (addSearch.after searchSerde emptyDatabase)).rows.lookup "mcp_1").map (fun row => (row.live,row.enabled)) =
        some (true,true) ∧
      ((addSearch.after searchSerde (toggleSearch.after searchSerde (addSearch.after searchSerde emptyDatabase))).rows.lookup "mcp_1").map
          (fun row => (row.live,row.enabled)) =
        some (true,false) :=
  ⟨rfl,rfl⟩

end Search

end AlineaCopilot.McpServers

import Kql.Database.Recorder

/-!
What an executor is asked to run. Every request comes to one text, or to the failure of its template; a
text is run once, on the database of the handle, as a command if it starts with a point and as a query
otherwise. So the record of a run follows from its requests alone, whatever the executor answers.
-/

namespace Kql

/-- Enters every call into a record, and leaves the answer to the given executor. -/
def Executor.recorded {m : Type → Type} [Monad m] {ε α : Type} (executor : Executor m ε α) :
    Executor (StateT (AppendList Database.LoggedCall) m) ε α where
  runQuery database text := do
    modify (·.push ⟨.query, database, text⟩)
    executor.runQuery database text
  runCommand database text := do
    modify (·.push ⟨.command, database, text⟩)
    executor.runCommand database text

namespace Database

theorem recorder_eq {ε α : Type} (answer : LoggedCall → Except ε α) :
    recorder answer = Executor.recorded (m := Id)
      ⟨fun database text => answer ⟨.query, database, text⟩,
        fun database text => answer ⟨.command, database, text⟩⟩ :=
  rfl

/-- Texts that start with a point are commands. -/
def CallKind.ofText (text : String) : CallKind :=
  if text.toList.head? = some '.' then .command else .query

/-- The text that a request comes to, if its template does not fail. -/
def Request.text : Request → Except TemplateError String
  | execute template params => Template.render template params
  | executeRendered text => .ok text
  | set template command params => command.render template params
  | collect p => .ok p.render

variable {m : Type → Type} {ε α : Type}

/-- The call that a text is run by. -/
def callOf (db : Database m ε α) (text : String) : LoggedCall := ⟨.ofText text, db.name, text⟩

/-- What a request leaves in the record: nothing if its template fails. -/
def loggedCall? (db : Database m ε α) (request : Request) : Option LoggedCall :=
  request.text.toOption.map db.callOf

/-- What the executor says of a call. -/
def run (db : Database m ε α) (call : LoggedCall) : m (Except ε α) :=
  match call.kind with
  | .query => db.executor.runQuery call.database call.text
  | .command => db.executor.runCommand call.database call.text

/-! ## What texts start with -/

theorem ofText_render (p : Pipeline) : CallKind.ofText p.render = .query := by
  have first : p.render.toList.head? = some 'c' := by
    rw [Pipeline.render_eq, Pipeline.anchor]
    delta DatabaseRef.anchor
    simp only [String.toList_append, List.append_assoc]
    rfl
  rw [CallKind.ofText, first]
  rfl

theorem ofText_header_append (c : SetCommand) (query : String) :
    CallKind.ofText (c.header ++ query) = .command := by
  have first : (c.header ++ query).toList.head? = some '.' := by
    delta SetCommand.header
    simp only [String.toList_append, List.append_assoc]
    rfl
  rw [CallKind.ofText, first]
  rfl

theorem loggedCall?_collect (db : Database m ε α) (p : Pipeline) :
    db.loggedCall? (.collect p) = some ⟨.query, db.name, p.render⟩ := by
  rw [loggedCall?, Request.text, Except.toOption, Option.map_some, callOf, ofText_render]

theorem loggedCall?_set (db : Database m ε α) (template : String) (command : SetCommand)
    (params : Params) :
    db.loggedCall? (.set template command params) =
      (command.render template params).toOption.map (LoggedCall.mk .command db.name) := by
  rw [loggedCall?, Request.text, SetCommand.render]
  cases Template.render template params with
  | error cause => rfl
  | ok query =>
      change some (db.callOf (command.header ++ query)) = some ⟨.command, db.name, _⟩
      rw [callOf, ofText_header_append]

/-! ## One request -/

variable [Monad m]

/-- What a request is answered: that its template fails, or what the executor says. -/
def answer (db : Database m ε α) (request : Request) : m (Except (Error ε) α) :=
  match request.text with
  | .error cause => return .error (.template cause)
  | .ok text => return (← db.run (db.callOf text)).mapError .execution

/-- The same database, with a record of what its executor is asked to run. -/
def recorded (db : Database m ε α) : Database (StateT (AppendList LoggedCall) m) ε α :=
  { db with executor := db.executor.recorded }

theorem perform_eq_executeResult (db : Database m ε α) (request : Request) :
    db.perform request = db.executeResult request.text := by
  cases request <;> rfl

variable [LawfulMonad m]

theorem executeRendered_recorded (db : Database m ε α) (text : String) (log : AppendList LoggedCall) :
    (db.recorded.executeRendered text).run log = do
      let result ← db.run (db.callOf text)
      return (result.mapError .execution, log.push (db.callOf text)) := by
  unfold executeRendered run callOf CallKind.ofText
  split
  · simp [recorded, Executor.recorded]
  · simp [recorded, Executor.recorded]

theorem perform_recorded (db : Database m ε α) (request : Request) (log : AppendList LoggedCall) :
    (db.recorded.perform request).run log = do
      let result ← db.answer request
      return (result, (db.loggedCall? request).toList.foldl AppendList.push log) := by
  rw [perform_eq_executeResult, answer, loggedCall?]
  cases request.text with
  | error cause => simp [executeResult, Except.toOption]
  | ok text => simp [executeResult, Except.toOption, executeRendered_recorded]

/-! ## Runs -/

/-- The record of a run holds one call for each request whose template does not fail, in the order of
the requests. Pipelines are recorded as queries, and commands that fill a table as commands. -/
theorem requests_recorded (db : Database m ε α) (requests : List Request)
    (log : AppendList LoggedCall) :
    (requests.mapM db.recorded.perform).run log = (do
      let answers ← requests.mapM db.answer
      return (answers, (requests.filterMap db.loggedCall?).foldl AppendList.push log)) ∧
    (∀ p, db.loggedCall? (.collect p) = some ⟨.query, db.name, p.render⟩) ∧
    ∀ template command params, db.loggedCall? (.set template command params) =
      (command.render template params).toOption.map (LoggedCall.mk .command db.name) := by
  refine ⟨?_, db.loggedCall?_collect, db.loggedCall?_set⟩
  induction requests generalizing log with
  | nil => simp
  | cons request rest ih =>
      simp only [List.mapM_cons, List.filterMap_cons, StateT.run_bind, perform_recorded, ih,
        bind_assoc, pure_bind]
      cases db.loggedCall? request with
      | none => simp
      | some call => simp

/-- Answers commands with themselves, and queries with the number of a failure. -/
def refuseQuery (call : LoggedCall) : Except Nat String :=
  match call.kind with
  | .query => .error 400
  | .command => .ok call.text

/-- A database whose executor runs commands only. -/
def withoutQueries : Database Id Nat String where
  cluster := "c"
  name := "d"
  executor :=
    ⟨fun database text => refuseQuery ⟨.query, database, text⟩,
      fun database text => refuseQuery ⟨.command, database, text⟩⟩

/-- The first request is not recorded. The name of the table in the last one starts with a point, but
not the text of its query, and the failure to run it is a number. -/
theorem requests_recorded_behind_failure :
    LawfulMonad Id ∧ ∃ requests answers log,
      requests = [.execute "\x7b\x7bn\x7d\x7d" [], .executeRendered ".t",
        .set "\x7b\x7bn\x7d\x7d" ⟨"A", "", "", true⟩ [("n", .string "T")],
        .collect (.ofTable ".t" ⟨"c", "d"⟩ .undeclared)] ∧
      (requests.mapM (Database.mk "c" "d" (recorder refuseQuery)).perform).run ∅ = (answers, log) ∧
      answers = [.error (.template (.missingParameter "n")), .ok ".t",
        .ok (SetCommand.header ⟨"A", "", "", true⟩ ++ "T"), .error (.execution 400)] ∧
      log.toList = [⟨.command, "d", ".t"⟩,
        ⟨.command, "d", SetCommand.header ⟨"A", "", "", true⟩ ++ "T"⟩,
        ⟨.query, "d", (Pipeline.ofTable ".t" ⟨"c", "d"⟩ .undeclared).render⟩] := by
  obtain ⟨requests, given⟩ : ∃ requests : List Request,
      requests = [.execute "\x7b\x7bn\x7d\x7d" [], .executeRendered ".t",
        .set "\x7b\x7bn\x7d\x7d" ⟨"A", "", "", true⟩ [("n", .string "T")],
        .collect (.ofTable ".t" ⟨"c", "d"⟩ .undeclared)] := ⟨_, rfl⟩
  have placeholder : Template.pieces "\x7b\x7bn\x7d\x7d" = [.placeholder "n"] := by
    rw [Template.pieces, Template.piecesAfter_of_placeholder?_eq_some rfl, Template.piecesAfter_nil]
    rfl
  have lacking : Template.render "\x7b\x7bn\x7d\x7d" [] = .error (.missingParameter "n") := by
    rw [Template.render, placeholder]
    rfl
  have stored : (SetCommand.mk "A" "" "" true).render "\x7b\x7bn\x7d\x7d" [("n", .string "T")] =
      .ok (SetCommand.header ⟨"A", "", "", true⟩ ++ "T") := by
    rw [SetCommand.render, Template.render, placeholder]
    rfl
  have recorded : Database.mk "c" "d" (recorder refuseQuery) = withoutQueries.recorded := by
    rw [recorder_eq]
    rfl
  refine ⟨inferInstance, requests, requests.mapM (m := Id) withoutQueries.answer,
    (requests.filterMap withoutQueries.loggedCall?).foldl AppendList.push ∅, given, ?_, ?_, ?_⟩
  · rw [recorded, (requests_recorded withoutQueries requests ∅).1]
    rfl
  · rw [given]
    simp only [List.mapM_cons, List.mapM_nil, answer, Request.text, lacking, stored, callOf,
      ofText_header_append, ofText_render]
    rfl
  · rw [given]
    simp only [List.filterMap_cons, List.filterMap_nil, loggedCall?, Request.text, lacking, stored]
    rfl

end Database
end Kql

import Handover.Proofs.Addresses
import Handover.Proofs.Situation
import Handover.Proofs.Underway

namespace Handover.Http

open Service

variable {δ : Type}

/-- A field of the value in the body of a response. -/
def Response.field? (answer : Response) (name : String) : Option Value :=
  match answer.body with
  | .value (.dict entries) => Http.field? entries name
  | _ => none

/-- How many records of each type a result counts. -/
def tally (r : JobResult) : Value :=
  Value.ofTexts (r.stats.map fun entry => (entry.1.text, .int entry.2))

/-- What the endpoints for the export of a tenant answer in a situation, by whether the queue is
full. -/
def Promises (settings : Settings) (tenant : Uuid) (full : Bool) :
    Situation → Endpoint → Response → Prop
  | .absent, .submit, answer => answer.status = if full then 429 else 202
  | .absent, _, answer => answer.status = 404
  | .unfinished _, .status, answer =>
    answer.status = 200 ∧ answer.field? "done" = some (.bool false) ∧
      answer.field? "success" = some (.bool false) ∧ answer.field? "download_url" = some .null
  | .unfinished _, _, answer => answer.status = 409
  | .failed _ error, .status, answer =>
    answer.status = 200 ∧ answer.field? "done" = some (.bool true) ∧
      answer.field? "success" = some (.bool false) ∧ answer.field? "error" = some (.str error) ∧
      answer.field? "download_url" = some .null
  | .failed _ error, .download, answer =>
    answer.status = 500 ∧ answer.field? "detail" = some (.str ("Tenant export failed: " ++ error))
  | .succeeded r, .status, answer =>
    answer.status = 200 ∧ answer.field? "done" = some (.bool true) ∧
      answer.field? "success" = some (.bool true) ∧ answer.field? "stats" = some (tally r) ∧
      answer.field? "download_url" = some (.str (exportPath settings tenant "download"))
  | .succeeded r, .download, answer =>
    answer.status = 200 ∧ ∃ members rows, answer.body = .archive members ∧ members.Carries r rows
  | _, .submit, answer => answer.status = if full then 429 else 202
  | _, _, answer => answer.status = 200

theorem described_fields (settings : Settings) (tenant : Uuid) (r : JobResult) :
    let answer := described settings tenant r
    answer.field? "done" = some (.bool r.isDone) ∧
      answer.field? "success" = some (.bool r.isSuccess) ∧
      answer.field? "error" = some (r.error.elim .null .str) ∧
      answer.field? "stats" = some (tally r) ∧
      answer.field? "download_url" =
        some (if r.isSuccess then .str (exportPath settings tenant "download") else .null) := by
  simp [Response.field?, described, answered, Value.ofTexts, field?, tally]

theorem refused_detail (status : Nat) (detail : String) :
    (refused status detail).field? "detail" = some (.str detail) := by
  simp [Response.field?, refused, answered, Value.ofTexts, field?]

section Answers

variable {w : World δ} {settings : Settings} {tenant : Uuid} {full : Bool} {situation : Situation}

/-- The answer to a request, by what the service has done for it. -/
def answerTo {α : Type} (failed : Failure → Response) (ok : α → Response) :
    Except Failure α → Response
  | .ok a => ok a
  | .error failure => failed failure

theorem status_promises (situated : w.Situated tenant situation) :
    Promises settings tenant full situation .status
      (answerTo statusFailure (described settings tenant) (situation.look tenant)) := by
  cases situated with
  | absent => rfl
  | @unfinished _ r _ _ unfinished =>
    obtain ⟨done, success, _, _, url⟩ := described_fields settings tenant r
    rw [unfinished] at done
    rw [JobResult.isSuccess_of_unfinished unfinished] at success url
    exact ⟨rfl, done, success, url⟩
  | @failed _ r error _ _ failed reason =>
    obtain ⟨done, success, told, _, url⟩ := described_fields settings tenant r
    rw [JobResult.isDone_of failed] at done
    rw [JobResult.isSuccess_of failed] at success url
    rw [reason] at told
    exact ⟨rfl, done, success, told, url⟩
  | @succeeded _ r _ _ succeeded =>
    obtain ⟨done, success, _, stats, url⟩ := described_fields settings tenant r
    rw [JobResult.isDone_of succeeded] at done
    rw [JobResult.isSuccess_of succeeded] at success url
    exact ⟨rfl, done, success, stats, url⟩

theorem download_promises {offered : Settings} (plain : offered.archiveName.toList.all
    fun c => c.toNat < 256) {answer : Except Failure Archive}
    (downloads : situation.Downloads tenant answer) :
    Promises settings tenant full situation .download
      (answerTo downloadFailure (delivered offered) answer) := by
  cases situation with
  | absent => cases downloads; rfl
  | unfinished r => cases downloads; rfl
  | failed r error => cases downloads; exact ⟨rfl, refused_detail ..⟩
  | succeeded r =>
    obtain ⟨members, rows, rfl, carries⟩ := downloads
    rw [answerTo, delivered, if_pos plain]
    exact ⟨rfl, members, rows, rfl, carries⟩

theorem submit_promises (worker : Worker Task) (situation : Situation) (accepted : Response)
    (ok : accepted.status = 202) : Promises settings tenant worker.isFull situation .submit
      (answerTo submitFailure (fun _ => accepted) (situation.submission worker tenant)) := by
  have new : (answerTo submitFailure (fun _ => accepted)
      (Situation.absent.submission worker tenant)).status =
        if worker.isFull then 429 else 202 := by
    rw [Situation.submission]
    cases worker.isFull with
    | true => rfl
    | false => exact ok
  cases situation with
  | unfinished r => rfl
  | absent => exact new
  | failed r error => exact new
  | succeeded r => exact new

theorem delete_promises (situation : Situation) (deleted : Response) (ok : deleted.status = 200) :
    Promises settings tenant full situation .delete
      (answerTo deleteFailure (fun _ => deleted) (situation.deletion tenant)) := by
  cases situation with
  | absent => rfl
  | unfinished r => rfl
  | failed r error => exact ok
  | succeeded r => exact ok

theorem deleteFailure_status (failure : Failure) : (deleteFailure failure).status ≠ 200 := by
  intro ok
  unfold deleteFailure at ok
  split at ok <;> cases ok

end Answers

namespace Application

variable {app : Application δ} {w : World δ} {tenant : Uuid} {request : Request}

theorem outcome_respond {α : Type} (act : Act (World δ) α) (failed : Failure → Response)
    (ok : α → Response) (w : World δ) : (respond act failed ok).outcome w =
      (.ok (answerTo failed ok (act.outcome w).1), (act.outcome w).2) := by
  rw [respond, Act.outcome_bind_ok (Act.outcome_attempt act w)]
  cases (act.outcome w).1 <;> rfl

theorem handle_found {endpoint : Endpoint} {text : String}
    (leads : app.leads request = .found endpoint text) :
    app.handle request = app.serve text request.body endpoint := by
  rw [Application.leads] at leads
  rw [handle, leads]

/-- An application that offers a service which refuses exports beside unfinished ones. The name
under which archives are offered can stand in the head of a response. -/
structure Serving (app : Application δ) (c : Surroundings δ) : Prop where
  env : app.env.Within c
  finds : c.FindsTenants
  refuses : app.env.allowsResubmission = false
  serves : app.hasService = true
  plain : app.offered.archiveName.toList.all fun ch => ch.toNat < 256

variable {c : Surroundings δ} {chronicle : Chronicle} {situation : Situation}

theorem forTenant_named (serves : app.hasService = true) {text : String}
    (named : pathTenant text = .valid tenant) (act : Uuid → Act (World δ) Response) :
    app.forTenant text act = act tenant := by
  rw [forTenant, serves, named]
  rfl

/-- An export that is asked for is submitted, and its result is shown then. -/
theorem outcome_submit (serves : app.hasService = true) {body : RequestBody}
    {content : Option Value} {skipped : List RecordType} (read : body.read = .valid content)
    (wanted : exportRequest content = .valid ⟨tenant, skipped⟩) (w : World δ) :
    (app.submit body).outcome w =
      match (Service.submit app.env tenant skipped).outcome w with
      | (.error failure, w') => (.ok (submitFailure failure), w')
      | (.ok id, w') => (respond (Service.getResult app.env id) (fun _ => internalError)
          (submitted app.settings app.offered id)).outcome w' := by
  rw [submit, read, serves]
  dsimp only
  rw [if_pos rfl, wanted]
  dsimp only
  rw [Act.outcome_bind_ok (Act.outcome_attempt _ w)]
  rcases (Service.submit app.env tenant skipped).outcome w with ⟨failure | id, w'⟩ <;> rfl

/-- A request that names a tenant in its path is answered by the situation of the tenant. -/
theorem named_answered (serving : app.Serving c) (h : w.Consistent chronicle)
    (situated : w.Situated tenant situation) {endpoint : Endpoint} {text : String}
    (about : endpoint = .status ∨ endpoint = .download ∨ endpoint = .delete)
    (leads : app.leads request = .found endpoint text) (named : pathTenant text = .valid tenant) :
    ∃ answer, ((app.handle request).outcome w).1 = .ok answer ∧
      Promises app.settings tenant w.worker.isFull situation endpoint answer := by
  rw [handle_found leads]
  rcases about with rfl | rfl | rfl
  · rw [serve, forTenant_named serving.serves named, outcome_respond,
      getResult_situated serving.env h situated]
    exact ⟨_, rfl, status_promises situated⟩
  · rw [serve, forTenant_named serving.serves named, outcome_respond]
    exact ⟨_, rfl, download_promises serving.plain (download_situated serving.env h situated)⟩
  · rw [serve, forTenant_named serving.serves named, outcome_respond,
      delete_situated serving.env h situated]
    exact ⟨_, rfl, delete_promises situation _ rfl⟩

/-- A request for an export of a known tenant is answered by the situation of the tenant. -/
theorem submission_answered (serving : app.Serving c) (h : w.Consistent chronicle)
    (situated : w.Situated tenant situation)
    (known : ∃ t, ((c.ask (.tenant tenant)).outcome w.data).1 = .ok (some t)) {text : String}
    {content : Option Value} {skipped : List RecordType}
    (leads : app.leads request = .found .submit text) (read : request.body.read = .valid content)
    (wanted : exportRequest content = .valid ⟨tenant, skipped⟩) :
    ∃ answer, ((app.handle request).outcome w).1 = .ok answer ∧
      Promises app.settings tenant w.worker.isFull situation .submit answer := by
  obtain ⟨replied, entered⟩ := submit_situated serving.env serving.finds h serving.refuses situated
    known skipped
  have consistent := submit_consistent serving.env serving.finds h tenant skipped
  have promises : ∀ accepted : Response, accepted.status = 202 →
      Promises app.settings tenant w.worker.isFull situation .submit
        (answerTo submitFailure (fun _ => accepted) (situation.submission w.worker tenant)) :=
    submit_promises w.worker situation
  rw [after] at entered
  rw [handle_found leads, serve, outcome_submit serving.serves read wanted]
  rcases run : (Service.submit app.env tenant skipped).outcome w with ⟨result, w'⟩
  rw [run] at replied entered consistent
  obtain rfl : result = _ := replied
  cases allowed : situation.submission w.worker tenant with
  | error failure =>
    rw [allowed] at promises
    exact ⟨_, rfl, promises (answered 202 .null) rfl⟩
  | ok =>
    obtain ⟨r, unfinished⟩ := entered allowed
    rw [allowed] at promises
    show ∃ answer, ((respond (Service.getResult app.env tenant) _ _).outcome w').1 = .ok answer ∧ _
    rw [outcome_respond, getResult_situated serving.env consistent unfinished]
    exact ⟨_, rfl, promises (submitted app.settings app.offered tenant r) rfl⟩

section Preserved

variable {P : World δ → Prop}

theorem respond_preserves {α : Type} {act : Act (World δ) α} (h : Act.Preserves P act)
    (failed : Failure → Response) (ok : α → Response) :
    Act.Preserves P (respond act failed ok) := by
  intro w hw
  rw [outcome_respond]
  exact h w hw

theorem forTenant_preserves (text : String) {act : Uuid → Act (World δ) Response}
    (h : ∀ tenant, Act.Preserves P (act tenant)) : Act.Preserves P (app.forTenant text act) := by
  unfold forTenant
  split
  · split
    next tenant _ => exact h tenant
    next => exact .pure _
  · exact .pure _

variable (kept : ∀ op, op ≠ .run → ∀ w, P w → P (after app.env w op))
include kept

theorem submit_preserves (body : RequestBody) : Act.Preserves P (app.submit body) := by
  unfold submit
  split
  next => exact .pure _
  next =>
    split
    next =>
      split
      next => exact .pure _
      next asked _ =>
        have submits : Act.Preserves P (Service.submit app.env asked.tenant asked.skipped) :=
          kept (.submit asked.tenant asked.skipped) (by simp)
        refine submits.attempt.bind fun result => ?_
        cases result with
        | error failure => exact .pure _
        | ok id => exact respond_preserves (kept (.look id) (by simp)) _ _
    next => exact .pure _

theorem serve_preserves (text : String) (body : RequestBody) (endpoint : Endpoint) :
    Act.Preserves P (app.serve text body endpoint) := by
  cases endpoint with
  | submit => exact submit_preserves kept body
  | status =>
    exact forTenant_preserves text fun id => respond_preserves (kept (.look id) (by simp)) _ _
  | download =>
    exact forTenant_preserves text fun id => respond_preserves (kept (.download id) (by simp)) _ _
  | delete =>
    exact forTenant_preserves text fun id => respond_preserves (kept (.delete id) (by simp)) _ _
  | queue =>
    refine Act.Preserves.get_bind fun w hw => ?_
    split <;> exact hw
  | health =>
    refine Act.Preserves.get_bind fun w hw => ?_
    dsimp only
    split <;> exact hw
  | welcome => exact .pure _

/-- What the operations of the service keep up, all but running a job, is kept up by every
request. -/
theorem handle_preserves (request : Request) : Act.Preserves P (app.handle request) := by
  unfold handle
  split
  next endpoint text _ => exact serve_preserves kept text request.body endpoint
  all_goals exact .pure _

end Preserved

/-- What happens to a service behind an application: a request is handled, it takes a turn, or its
cleaner comes to some clean-ups. -/
inductive Event where
  | request (request : Request)
  | turn (turn : Turn)
  | tend (count : Nat)
  deriving Repr

def happen (app : Application δ) (s : Bench δ) : Event → Bench δ
  | .request request => { s with world := ((app.handle request).outcome s.world).2 }
  | .turn turn => s.turn app.env turn
  | .tend count => { s with world := onward app.env s.world (.tend count) }

/-- A service after some events. -/
def course (app : Application δ) (events : List Event) (s : Bench δ) : Bench δ :=
  events.foldl app.happen s

/-- Whether an event does no harm to an archive or to the job under way: it is no clean-up that comes
too late. -/
def Event.Harmless (s : Bench δ) : Event → Prop
  | .tend count => s.Harmless count
  | .request _ => True
  | .turn _ => True

instance Event.Harmless.decidable (s : Bench δ) : (event : Event) → Decidable (event.Harmless s)
  | .tend count => inferInstanceAs (Decidable (s.Harmless count))
  | .request _ => isTrue trivial
  | .turn _ => isTrue trivial

/-- Whether every clean-up that comes late is harmless by then. -/
def Harmless (app : Application δ) : List Event → Bench δ → Prop
  | [], _ => True
  | event :: rest, s => event.Harmless s ∧ Harmless app rest (app.happen s event)

instance Harmless.decidable (app : Application δ) :
    (events : List Event) → (s : Bench δ) → Decidable (app.Harmless events s)
  | [], _ => isTrue trivial
  | event :: rest, s =>
    have := Harmless.decidable app rest (app.happen s event)
    inferInstanceAs (Decidable (event.Harmless s ∧ app.Harmless rest (app.happen s event)))

theorem happen_consistent (serving : app.Serving c) {s : Bench δ}
    (h : s.Consistent chronicle) {event : Event} (harmless : event.Harmless s) :
    ∃ chronicle', (app.happen s event).Consistent chronicle' := by
  cases event with
  | request request =>
    exact ⟨chronicle, handle_preserves (P := fun w => Bench.Consistent ⟨w, s.work⟩ chronicle)
      (fun op hop w hw => Bench.request_consistent serving.env serving.finds hw hop) request
      s.world h⟩
  | turn turn => exact Bench.turn_consistent serving.env serving.finds h turn
  | tend count => exact ⟨chronicle, Bench.tend_consistent serving.env h harmless⟩

/-- Whatever happens, all belongs together. -/
theorem course_consistent (serving : app.Serving c) {s : Bench δ} (h : s.Consistent chronicle)
    {events : List Event} (harmless : app.Harmless events s) :
    ∃ chronicle', (app.course events s).Consistent chronicle' := by
  induction events generalizing s chronicle with
  | nil => exact ⟨chronicle, h⟩
  | cons event rest ih =>
    obtain ⟨chronicle', consistent⟩ := happen_consistent serving h harmless.1
    exact ih consistent harmless.2

/-- A tenant whose result has been deleted is absent. -/
theorem deleted_absent (serving : app.Serving c) (h : w.Consistent chronicle)
    (asks : app.Asks tenant .delete request) {answer : Response}
    (answered : ((app.handle request).outcome w).1 = .ok answer) (ok : answer.status = 200) :
    World.Consistent ((app.handle request).outcome w).2 chronicle ∧
      World.Situated ((app.handle request).outcome w).2 tenant .absent := by
  obtain _ | ⟨_, leads, named⟩ := asks
  rw [handle_found leads, serve, forTenant_named serving.serves named, outcome_respond]
    at answered ⊢
  refine ⟨h.trims (delete_trims serving.env h tenant), delete_absent serving.env ?_⟩
  obtain rfl := Except.ok.inj answered
  cases deleted : ((Service.delete app.env tenant).outcome w).1 with
  | ok => rfl
  | error failure =>
    rw [deleted] at ok
    exact absurd ok (deleteFailure_status failure)

/-- A request about the export of a known tenant is answered by the situation of the tenant. -/
theorem Asks.answered {endpoint : Endpoint} (asks : app.Asks tenant endpoint request)
    (serving : app.Serving c) (h : w.Consistent chronicle) (situated : w.Situated tenant situation)
    (known : endpoint = .submit → ∃ t, ((c.ask (.tenant tenant)).outcome w.data).1 = .ok (some t)) :
    ∃ answer, ((app.handle request).outcome w).1 = .ok answer ∧
      Promises app.settings tenant w.worker.isFull situation endpoint answer := by
  cases asks with
  | submission leads read wanted =>
    exact submission_answered serving h situated (known rfl) leads read wanted
  | named about leads named => exact named_answered serving h situated about leads named

/-- The endpoints agree. Whatever has happened before, requests, turns of the worker, purges and the
passing of time in any order, a known tenant is in exactly one situation, and a request to any
endpoint for its export is answered as that situation promises. When its result has been deleted,
it is absent for all of them. Clean-ups that come late have to be harmless by then. -/
theorem endpoints_agree (c : Surroundings δ) (app : Application δ) (serving : app.Serving c)
    (w₀ : World δ) (opening : w₀.Opening) (events : List Event)
    (harmless : app.Harmless events ⟨w₀, none⟩) (tenant : Uuid) :
    let w := (app.course events ⟨w₀, none⟩).world
    (∃ t, ((c.ask (.tenant tenant)).outcome w.data).1 = .ok (some t)) →
    ∃ situation, w.Situated tenant situation ∧
      (∀ other, w.Situated tenant other → other = situation) ∧
      (∀ endpoint request, app.Asks tenant endpoint request →
        ∃ answer, ((app.handle request).outcome w).1 = .ok answer ∧
          Promises app.settings tenant w.worker.isFull situation endpoint answer) ∧
      ∀ request answer, app.Asks tenant .delete request →
        ((app.handle request).outcome w).1 = .ok answer → answer.status = 200 →
        ∀ endpoint next, app.Asks tenant endpoint next → endpoint ≠ .submit →
          ∃ gone, ((app.handle next).outcome ((app.handle request).outcome w).2).1 = .ok gone ∧
            gone.status = 404 := by
  intro w known
  obtain ⟨chronicle, consistent⟩ := course_consistent serving (.idle opening.consistent) harmless
  obtain ⟨situation, situated⟩ := consistent.world.situated tenant
  refine ⟨situation, situated, fun other h => situated.unique h, fun endpoint request asks =>
    asks.answered serving consistent.world situated fun _ => known,
    fun request answer asks answered ok endpoint next asked hne => ?_⟩
  obtain ⟨after, absent⟩ := deleted_absent serving consistent.world asks answered ok
  obtain ⟨gone, run, promises⟩ := asked.answered serving after absent fun same => absurd same hne
  refine ⟨gone, run, ?_⟩
  cases endpoint with
  | submit => exact absurd rfl hne
  | _ => exact promises

/-- A tenant that has been exported again, after an earlier result was deleted and cleaned up after,
is in one situation for all endpoints, and in another one once its result has been deleted. -/
theorem endpoints_agree_exported :
    let store : Store := ⟨[.tenant ⟨⟨7⟩, .str "acme"⟩]⟩
    let w₀ : World Store := ⟨store, [], ⟨86400, true, .idle, []⟩, 0, ⟨16, true, []⟩,
      .here (.new "data.tar"), ⟨0⟩, []⟩
    let c : Surroundings Store := { Surroundings.ofStore 0 with keepsUp := false }
    let app : Application Store :=
      ⟨.around c ⟨.standard, 100, 512, .null, []⟩ false 9, .standard, .null, true, true⟩
    let submit : Request := ⟨"POST", "/api/v1/export/tenants",
      .value (exportBody ⟨7⟩ (RecordType.all.filter (· ≠ .tenant)))⟩
    let download : Request := ⟨"GET", exportPath .standard ⟨7⟩ "download", .absent⟩
    let delete : Request := ⟨"DELETE", "/api/v1/export/tenants/" ++ Uuid.text ⟨7⟩, .absent⟩
    let run := Event.turn (.request .run)
    let events := [.request submit, run, .request delete, .tend 1, .request submit, run]
    let w := (app.course events ⟨w₀, none⟩).world
    app.Serving c ∧ w₀.Opening ∧ app.Harmless events ⟨w₀, none⟩ ∧
      ∃ r answer members rows deleted gone, w.Situated ⟨7⟩ (.succeeded r) ∧
        ((app.handle download).outcome w).1 = .ok answer ∧ answer.status = 200 ∧
        answer.body = .archive members ∧ members.Carries r rows ∧
        ((app.handle delete).outcome w).1 = .ok deleted ∧ deleted.status = 200 ∧
        ((app.handle download).outcome ((app.handle delete).outcome w).2).1 = .ok gone ∧
        gone.status = 404 := by
  intro store w₀ c app submit download delete run events w
  have serving : app.Serving c :=
    ⟨Environment.around_within .., ofStore_findsTenants 0, rfl, rfl, by decide⟩
  have opening : w₀.Opening :=
    ⟨rfl, rfl, by decide, rfl, rfl, Storage.here_sound (by decide)⟩
  have harmless : app.Harmless events ⟨w₀, none⟩ := by decide +kernel
  have found : (w.data.tenant? ⟨7⟩).isSome = true := by decide +kernel
  obtain ⟨t, known⟩ := Option.isSome_iff_exists.mp found
  have live : live? w ⟨7⟩ = some 1 := by decide +kernel
  have status : (w.result? 1).map (·.status) = some .succeeded := by decide +kernel
  obtain ⟨r, result, succeeded⟩ := Option.map_eq_some_iff.mp status
  have plain : Plain app.settings.apiPath := by decide +kernel
  obtain ⟨_, asks, asksDelete, _⟩ := asks_addresses plain ⟨7⟩ .absent
  obtain ⟨situation, _, unique, answers, gone⟩ :=
    endpoints_agree c app serving w₀ opening events harmless ⟨7⟩ ⟨t, congrArg Except.ok known⟩
  have situated : w.Situated ⟨7⟩ (.succeeded r) := .succeeded live result succeeded
  obtain rfl := unique _ situated
  obtain ⟨answer, downloaded, ok, members, rows, body, carries⟩ := answers _ _ asks
  obtain ⟨deleted, answered, done⟩ := answers _ _ asksDelete
  obtain ⟨missing, again, code⟩ := gone _ _ asksDelete answered done _ _ asks (by simp)
  exact ⟨serving, opening, harmless, r, answer, members, rows, deleted, missing, situated,
    downloaded, ok, body, carries, answered, done, again, code⟩

/-- A clean-up that comes after the next export of its tenant sets the endpoints at odds: the status
is that of an export that succeeded, and its download is not found. -/
theorem late_cleanUp_sets_at_odds :
    let w₀ : World Store := ⟨⟨[.tenant ⟨⟨7⟩, .str "acme"⟩]⟩, [], ⟨86400, true, .idle, []⟩, 0,
      ⟨16, true, []⟩, .here (.new "data.tar"), ⟨0⟩, []⟩
    let app : Application Store := ⟨.around { Surroundings.ofStore 0 with keepsUp := false }
      ⟨.standard, 100, 512, .null, []⟩ false 9, .standard, .null, true, true⟩
    let submit : Request := ⟨"POST", "/api/v1/export/tenants",
      .value (exportBody ⟨7⟩ (RecordType.all.filter (· ≠ .tenant)))⟩
    let download : Request := ⟨"GET", exportPath .standard ⟨7⟩ "download", .absent⟩
    let delete : Request := ⟨"DELETE", "/api/v1/export/tenants/" ++ Uuid.text ⟨7⟩, .absent⟩
    let run := Event.turn (.request .run)
    let events := [.request submit, run, .request delete, .request submit, run, .tend 1]
    let w := (app.course events ⟨w₀, none⟩).world
    (∃ r, w.Situated ⟨7⟩ (.succeeded r)) ∧
      ((app.handle download).outcome w).1.toOption.map (·.status) = some 404 := by
  intro w₀ app submit download delete run events w
  have live : live? w ⟨7⟩ = some 1 := by decide +kernel
  have status : (w.result? 1).map (·.status) = some .succeeded := by decide +kernel
  obtain ⟨r, result, succeeded⟩ := Option.map_eq_some_iff.mp status
  exact ⟨⟨r, .succeeded live result succeeded⟩, by decide +kernel⟩

end Application

end Handover.Http

import Handover.Proofs.Accounting
import Handover.Proofs.Finality
import Handover.Proofs.Places
import Handover.Proofs.Polling

namespace Handover

open Act (Preserves)

variable {δ : Type}

/-- The place of the job on duty. -/
def Duty.place? : Duty → Option Nat
  | .idle => none
  | .exporting job => some job.place
  | .marked job => some job.place
  | .touched job => some job.place

namespace Service

/-- The failure to find a result of a tenant. -/
def notFound (tenant : Uuid) : Failure :=
  .resultNotFound (.uuid tenant)

end Service

/-- Whether a call puts nothing in and leaves the registry open. -/
def RegistryCall.takesOnly {κ ν : Type} : RegistryCall κ ν → Bool
  | .put .. => false
  | .close => false
  | _ => true

/-- What a call that puts nothing in gives notice of has left the registry. -/
theorem Registry.follow_less {r : Registry Uuid Nat} (keyed : r.Keyed) (listens : r.listens = true)
    (awake : r.cleaner ≠ .stopped) (absent : Uuid → Failure) (m : Moment Nat)
    {call : RegistryCall Uuid Nat} (takes : call.takesOnly = true) (key : Uuid) (value : Nat) :
    let removal := r.follow absent m call
    removal.registry.presence key value + removal.notices.countP (·.tellsOf key value) ≤
      r.presence key value := by
  have account := Registry.follow_accounted keyed listens awake absent m call key value
  have none : Transaction.puts key value ⟨call, r.follow absent m call⟩ = false := by
    cases call with
    | put other v => cases takes
    | _ => rfl
  dsimp only at account ⊢
  rw [none, Bool.toNat_false] at account
  omega

namespace World

/-- A world in which these notices have been given: a result that is registered has not been told
of, and none has been told of twice. -/
structure Accounted (told : List (Notice Uuid Nat)) (w : World δ) : Prop where
  sound : w.registry.Sound
  listens : w.registry.listens = true
  once : ∀ key value, w.registry.presence key value + told.countP (·.tellsOf key value) ≤
    if value < w.results.length then 1 else 0

namespace Accounted

variable {told : List (Notice Uuid Nat)} {w w' : World δ}

theorem same (h : w.Accounted told) (registry : w'.registry = w.registry)
    (size : w'.results.length = w.results.length) : w'.Accounted told := by
  refine ⟨?_, ?_, fun key value => ?_⟩
  · rw [registry]
    exact h.sound
  · rw [registry]
    exact h.listens
  · rw [registry, size]
    exact h.once key value

theorem beside (h : w.Accounted told) (h' : w.Beside w') : w'.Accounted told :=
  h.same h'.registry (congrArg List.length h'.results)

/-- What a call takes from the registry it gives notice of, or drops. -/
theorem follow (h : w.Accounted told) (m : Moment Nat) (call : RegistryCall Uuid Nat)
    (takes : call.takesOnly = true) :
    let removal := w.registry.follow Service.notFound m call
    World.Accounted (told ++ removal.notices) { w with registry := removal.registry } := by
  intro removal
  have keyed : w.registry.Keyed := h.sound.keyed
  refine ⟨⟨keyed.follow Service.notFound m call, fun stopped => ?_⟩, ?_, fun key value => ?_⟩
  · rcases (Registry.follow_cleaner Service.notFound w.registry m call).2 stopped with
      before | closed
    · exact h.sound.awake before
    · rw [closed] at takes
      cases takes
  · exact (Registry.follow_terms Service.notFound w.registry m call).2.trans h.listens
  · rw [List.countP_append, Nat.add_left_comm]
    have less := Registry.follow_less keyed h.listens h.sound.awake Service.notFound m takes key
      value
    have once := h.once key value
    show _ + (removal.registry.presence key value + removal.notices.countP _) ≤ _
    exact Nat.le_trans (Nat.add_le_add_left less _) (Nat.add_comm .. ▸ once)

theorem quiet (h : w.Accounted told) (m : Moment Nat) (call : RegistryCall Uuid Nat)
    (takes : call.takesOnly = true)
    (silent : (w.registry.follow Service.notFound m call).notices = []) :
    World.Accounted told
      { w with registry := (w.registry.follow Service.notFound m call).registry } := by
  have followed := h.follow m call takes
  dsimp only at followed
  rwa [silent, List.append_nil] at followed

/-- A result that is registered is a new one. -/
theorem registered (h : w.Accounted told) (id : Uuid) : (w.registered id).Accounted told := by
  have size : (w.registered id).results.length = w.results.length + 1 := List.length_append
  refine ⟨h.sound.put w.time id w.results.length, ?_, fun key value => ?_⟩
  · have terms := Registry.follow_terms Service.notFound w.registry
      ⟨w.time, w.isEvictable⟩ (.put id w.results.length)
    exact terms.2.trans h.listens
  · have put := Registry.put_accounted w.registry key value w.time id w.results.length
    have once := h.once key value
    have fresh : (decide (id = key ∧ w.results.length = value)).toNat ≤
        if w.results.length = value then 1 else 0 := by
      by_cases new : w.results.length = value
      · rw [if_pos new]
        exact Bool.toNat_le _
      · simp [new]
    rw [size]
    show (w.registry.put w.time id w.results.length).2.presence key value + _ ≤ _
    split_ifs at once fresh ⊢ <;> omega

end Accounted

end World

namespace Service

variable {env : Environment δ} {told : List (Notice Uuid Nat)} {w : World δ}

theorem looked_accounted (h : w.Accounted told) (tenant : Uuid) :
    (w.looked tenant).Accounted (told ++ notices.found w tenant) :=
  h.follow ⟨w.time, w.isEvictable⟩ (.get tenant) rfl

theorem submit_accounted (e : env.Apart) (id : Uuid) (skipped : List RecordType) :
    Preserves (World.Accounted told) (submit env id skipped) := by
  exact submit_preserves e (fun h beside => h.beside beside)
    (fun id h => h.quiet ⟨_, World.isEvictable _⟩ (.peek id) rfl rfl)
    (fun id h => h.registered id) (fun h _ => h.same rfl rfl)
    (fun id ticket h => h.quiet ⟨0, fun _ => false⟩ (.discard id ticket) rfl rfl)
    id skipped

theorem delete_accounted (e : env.Apart) (h : w.Accounted told) (tenant : Uuid) :
    (after env w (.delete tenant)).Accounted (told ++ notices env w (.delete tenant)) := by
  obtain ⟨answer, w', run, beside, found⟩ := outcome_getResult_apart e w tenant
  have looked := looked_accounted h tenant
  have told' : notices env w (.delete tenant) = notices.found w tenant ++
      if answer.toOption.any JobResult.isDone then (w'.registry.remove tenant).notices
      else [] := by
    rw [notices, run]
  rw [told']
  rcases outcome_delete_apart e w tenant with
    ⟨_, v, ran, ⟨beside', undone⟩ | ⟨beside', _, ticket, r, live, hr, done⟩⟩
  · have left : answer.toOption.any JobResult.isDone = false := by
      cases answer with
      | error failure => rfl
      | ok r =>
        obtain ⟨ticket, live, hr⟩ := found r rfl
        exact undone ticket r live hr
    rw [after, ran, left, if_neg Bool.false_ne_true, List.append_nil]
    exact looked.beside beside'
  · have read : (getResult env tenant).outcome w = _ := outcome_getResult_some live hr
    rw [run] at read
    obtain rfl : answer = .ok r := congrArg Prod.fst read
    have removed := looked.follow ⟨w.time, w.isEvictable⟩ (.remove tenant) rfl
    rw [after, ran, Except.toOption, Option.any_some, done, if_pos rfl, beside.registry,
      ← List.append_assoc]
    exact World.Accounted.beside removed beside'

/-- What a request takes from the registry the listener is told of. -/
theorem request_accounted (e : env.Apart) (h : w.Accounted told) {op : Operation}
    (hop : op ≠ .run) : (after env w op).Accounted (told ++ notices env w op) := by
  have untold : ∀ {w' : World δ}, w'.Accounted told → w'.Accounted (told ++ []) := by
    intro w' h'
    rwa [List.append_nil]
  cases op with
  | submit id skipped => exact untold (submit_accounted e id skipped w h)
  | run => exact absurd rfl hop
  | look tenant =>
    obtain ⟨answer, w', run, beside, _⟩ := outcome_getResult_apart e w tenant
    rw [after, run]
    exact (looked_accounted h tenant).beside beside
  | download tenant => exact (looked_accounted h tenant).beside (download_beside e w tenant)
  | delete tenant => exact delete_accounted e h tenant
  | purge =>
    obtain ⟨w', run, beside⟩ := outcome_purge_apart e w
    have purged := h.follow ⟨w.time, w.isEvictable⟩ .purge rfl
    rw [after, run]
    exact World.Accounted.beside purged beside
  | advance seconds => exact untold (h.same rfl rfl)

end Service

namespace Session

open Service

variable {env : Environment δ} {s : Session δ}

/-- What the worker does to a session: results stay the results that they are, the registry stays as
it is or the time of a result starts anew, and a job takes up the worker or leaves it. -/
structure Labours (s t : Session δ) : Prop where
  size : t.world.results.length = s.world.results.length
  registry : t.world.registry = s.world.registry ∨ ∃ key value,
    t.world.registry = (s.world.registry.touch s.world.time key value).2
  worker : (t.world.worker = s.world.worker ∧ t.duty.place? = s.duty.place?) ∨
    (∃ place, s.duty = .idle ∧ s.world.worker.phase? place = some .queued ∧
      t.world.worker = s.world.worker.setPhase place .running ∧ t.duty.place? = some place) ∨
    ∃ place, s.duty.place? = some place ∧ t.duty = .idle ∧
      t.world.worker = s.world.worker.setPhase place .finished

theorem Labours.refl (s : Session δ) : s.Labours s :=
  ⟨rfl, .inl rfl, .inl ⟨rfl, rfl⟩⟩

theorem Labours.of_rewrites {w' : World δ} {ticket : Nat} {duty : Duty}
    (rewrites : s.world.Rewrites ticket w') (place : duty.place? = s.duty.place?) :
    s.Labours ⟨w', duty⟩ :=
  ⟨rewrites.size, .inl rewrites.registry, .inl ⟨rewrites.worker, place⟩⟩

theorem step_labours (e : env.Apart) (s : Session δ) {move : Move}
    (unasked : ∀ op, move = .request op → op = .run) : s.Labours (step env s move) := by
  cases move with
  | request op =>
    cases unasked op rfl
    exact .refl s
  | start =>
    unfold step
    dsimp only
    split
    next place ticket tenant skipped worker duty start =>
      obtain ⟨found, rfl, _⟩ := Worker.start?_some start
      have waits : s.world.worker.phase? place = some .queued := by rw [Worker.phase?, found]; rfl
      have rewrites := markResult_rewrites
        { s.world with worker := s.world.worker.setPhase place .running } ticket .running
      exact ⟨rewrites.size, .inl rewrites.registry,
        .inr (.inl ⟨place, duty, waits, rewrites.worker, rfl⟩)⟩
    next => exact .refl s
  | effort effort =>
    rcases step_effort env s effort with same | ⟨job, duty, same⟩
    · rw [same]
      exact .refl s
    · have amid := effort_amid e s.world job.ticket job.tenant.id effort s.world (.refl _ _)
      rw [same]
      exact .of_rewrites (.of_amid amid) (by rw [duty])
  | mark outcome =>
    rcases step_mark env s outcome with same | ⟨job, duty, same⟩
    · rw [same]
      exact .refl s
    · rw [same]
      exact .of_rewrites (markResult_rewrites ..) (by rw [duty]; rfl)
  | touch =>
    rcases step_touch env s with same | ⟨job, duty, same⟩
    · rw [same]
      exact .refl s
    · rw [same]
      exact ⟨rfl, .inr ⟨_, _, rfl⟩, .inl ⟨rfl, by rw [duty]; rfl⟩⟩
  | leave =>
    rcases step_leave env s with same | ⟨job, duty, same⟩
    · rw [same]
      exact .refl s
    · rw [same]
      exact ⟨rfl, .inl rfl, .inr (.inr ⟨job.place, by rw [duty]; rfl, rfl, rfl⟩)⟩

/-- The notices that the registry gives when something happens. -/
def notices (env : Environment δ) (s : Session δ) : Happening → List (Notice Uuid Nat)
  | .move (.request op) => Service.notices env s.world op
  | .shutdown => s.world.registry.close.notices
  | _ => []

theorem notices_unasked (env : Environment δ) (s : Session δ) {move : Move}
    (unasked : ∀ op, move = .request op → op = .run) : s.notices env (.move move) = [] := by
  cases move with
  | request op =>
    cases unasked op rfl
    rfl
  | _ => rfl

theorem happen_request {op : Operation} (hop : op ≠ .run) :
    s.happen env (.move (.request op)) = ⟨Service.after env s.world op, s.duty⟩ :=
  step_request hop

/-- What the listener is told while some things happen, in order. -/
def told (env : Environment δ) : List Happening → Session δ → List (Notice Uuid Nat)
  | [], _ => []
  | happening :: rest, s => s.notices env happening ++ told env rest (s.happen env happening)

theorem told_append (env : Environment δ) (happenings more : List Happening) (s : Session δ) :
    told env (happenings ++ more) s =
      told env happenings s ++ told env more (s.pass env happenings) := by
  induction happenings generalizing s with
  | nil => rfl
  | cons happening rest ih =>
    rw [List.cons_append, told, told, ih, List.append_assoc]
    rfl

theorem Labours.accounted {t : Session δ} {ns : List (Notice Uuid Nat)} (labours : s.Labours t)
    (h : s.world.Accounted ns) : t.world.Accounted ns := by
  rcases labours.registry with same | ⟨key, value, touched⟩
  · exact h.same same labours.size
  · have quiet := h.quiet ⟨s.world.time, s.world.isEvictable⟩ (.touch key value) rfl rfl
    exact quiet.same touched labours.size

/-- Before a shutdown, what leaves the registry is told of. -/
theorem happen_accounted (e : env.Apart) {ns : List (Notice Uuid Nat)}
    (h : s.world.Accounted ns) {happening : Happening} (runs : happening ≠ .shutdown) :
    (s.happen env happening).world.Accounted (ns ++ s.notices env happening) := by
  have untold : ∀ {w : World δ}, w.Accounted ns → w.Accounted (ns ++ []) := by
    intro w hw
    rwa [List.append_nil]
  cases happening with
  | move move =>
    rcases move.request_or with ⟨op, hop, rfl⟩ | unasked
    · rw [happen_request hop]
      exact Service.request_accounted e h hop
    · rw [notices_unasked env s unasked]
      exact untold ((step_labours e s unasked).accounted h)
  | stop => exact untold (h.same rfl rfl)
  | shutdown => exact absurd rfl runs
  | disturb storage => exact untold (h.same rfl rfl)

end Session

end Handover

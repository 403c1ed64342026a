import Handover.Proofs.Dialogue
import Handover.Proofs.JobResult
import Handover.Proofs.Storage
import Handover.Service

namespace Handover

/-- What surrounds a service: a source of data, the time, what happens before a record is written
and before files are packed, and whether the cleaner keeps up. It acts on a state of its own. -/
structure Surroundings (δ : Type) where
  ask : Source δ
  now : Act δ Int
  writing : Act δ Unit
  packing : Act δ Unit
  keepsUp : Bool := true

variable {δ : Type}

namespace World

/-- An action on the data of a world. -/
def onData {α : Type} (act : Act δ α) : Act (World δ) α :=
  act.onPart (·.data) fun w data => { w with data }

def withWorkspace (w : World δ) (ws : Workspace) : World δ :=
  { w with storage := w.storage.withWorkspace ws }

theorem result?_congr {w w' : World δ} (h : w'.results = w.results) (ticket : Nat) :
    w'.result? ticket = w.result? ticket := by
  rw [result?, result?, h]

theorem isEvictable_congr {w w' : World δ} (h : w'.results = w.results) :
    w'.isEvictable = w.isEvictable := by
  funext ticket
  rw [isEvictable, isEvictable, result?_congr h]

end World

/-- The environment of a service in its surroundings. -/
def Environment.around (c : Surroundings δ) (plan : JobPlan) (allowsResubmission : Bool)
    (pageBound : Nat) : Environment δ where
  ask q := World.onData (c.ask q)
  before
    | .save => World.onData c.writing
    | .pack => World.onData c.packing
    | _ => pure ()
  now := World.onData c.now
  plan := plan
  pageBound := pageBound
  allowsResubmission := allowsResubmission
  keepsUp := c.keepsUp

/-- Whether an environment is one in some surroundings. -/
structure Environment.Within (env : Environment δ) (c : Surroundings δ) : Prop where
  ask : ∀ q, env.ask q = World.onData (c.ask q)
  save : env.before .save = World.onData c.writing
  pack : env.before .pack = World.onData c.packing
  others : ∀ call, call ≠ .save → call ≠ .pack → env.before call = pure ()
  now : env.now = World.onData c.now

theorem Environment.around_within (c : Surroundings δ) (plan : JobPlan) (allows : Bool)
    (bound : Nat) : (around c plan allows bound).Within c where
  ask _ := rfl
  save := rfl
  pack := rfl
  others call hsave hpack := by cases call <;> first | rfl | contradiction
  now := rfl

/-- The surroundings in which a store answers and everything happens. -/
def Surroundings.ofStore (now : Int) : Surroundings Store where
  ask q := do Act.settle ((← get).answer q)
  now := pure now
  writing := pure ()
  packing := pure ()

theorem Environment.ofStore_within (plan : JobPlan) (now : Int) (allows : Bool) (bound : Nat) :
    (ofStore plan now allows bound).Within (.ofStore now) where
  ask _ := rfl
  save := rfl
  pack := rfl
  others _ _ _ := rfl
  now := rfl

/-- How far a job has come since a world: the records it has kept can be written and are counted in
its result, and the results of others, the registry, the worker, the time and the clock are as they
were. -/
structure World.Counted (w₀ : World δ) (ticket : Nat) (kept : List (RecordType × Value))
    (w : World δ) : Prop where
  registry : w.registry = w₀.registry
  time : w.time = w₀.time
  worker : w.worker = w₀.worker
  clock : w.clock = w₀.clock
  results : w.results = w₀.results.modify ticket fun r => r.reported kept
  writable : ∀ row ∈ kept, ∃ line, Json.line row.1 row.2 = .ok line

/-- How far a job has come with its files, too. -/
structure World.Progress (w₀ : World δ) (ticket : Nat) (tenant : Uuid)
    (kept : List (RecordType × Value)) (w : World δ) : Prop where
  counted : w₀.Counted ticket kept w
  files : ∃ ws, w.storage = w₀.storage.withWorkspace ws ∧
    Workspace.Changed tenant w₀.storage.workspace ws (.lines (Holding.written kept))

namespace World

variable {w₀ w w' : World δ} {ticket : Nat} {tenant : Uuid} {kept : List (RecordType × Value)}

theorem outcome_onData {α : Type} (act : Act δ α) (w : World δ) :
    (onData act).outcome w = ((act.outcome w.data).1, { w with data := (act.outcome w.data).2 }) :=
  rfl

theorem Progress.withData (h : w₀.Progress ticket tenant kept w) (data : δ) :
    w₀.Progress ticket tenant kept { w with data } :=
  ⟨⟨h.counted.registry, h.counted.time, h.counted.worker, h.counted.clock, h.counted.results,
    h.counted.writable⟩, h.files⟩

/-- The lines of a job in its files. -/
theorem Progress.workspace (h : w₀.Progress ticket tenant kept w) :
    Workspace.Changed tenant w₀.storage.workspace w.storage.workspace
      (.lines (Holding.written kept)) := by
  obtain ⟨ws, hs, changed⟩ := h.files
  rw [hs, Storage.workspace_withWorkspace]
  exact changed

theorem Progress.closed (h : w₀.Progress ticket tenant kept w) :
    w₀.Progress ticket tenant kept (w.withWorkspace (w.storage.workspace.closed tenant)) := by
  refine ⟨⟨h.counted.registry, h.counted.time, h.counted.worker, h.counted.clock,
    h.counted.results, h.counted.writable⟩, w.storage.workspace.closed tenant, ?_, ?_⟩
  · obtain ⟨ws, hs, _⟩ := h.files
    rw [withWorkspace, hs, Storage.withWorkspace_withWorkspace]
  · exact h.workspace.trans
      (Workspace.closed_changed h.workspace.sound h.workspace.holds)

end World

namespace Service

variable {env : Environment δ} {c : Surroundings δ}
variable {w₀ w w' : World δ} {ticket : Nat} {tenant : Uuid} {kept : List (RecordType × Value)}

theorem outcome_useStorage {α : Type} {env : Environment δ} {call : StorageCall}
    {act : Act Storage α} {result : Except Failure α} {s : Storage}
    (before : env.before call = pure ()) (h : act.outcome w.storage = (result, s)) :
    (useStorage env call act).outcome w = (result, { w with storage := s }) := by
  rw [useStorage, before, Act.outcome_bind_ok (Act.outcome_pure _ _), Act.outcome_onPart, h]

/-- What happens ahead of a use of the storage touches the data alone. -/
theorem outcome_useStorage_ok {α : Type} {env : Environment δ} {call : StorageCall}
    {ahead : Act δ Unit} {act : Act Storage α} {data : δ}
    (before : env.before call = World.onData ahead)
    (happens : ahead.outcome w.data = (.ok (), data)) :
    (useStorage env call act).outcome w =
      ((act.outcome w.storage).1, { w with data, storage := (act.outcome w.storage).2 }) := by
  rw [useStorage, before, Act.outcome_bind, World.outcome_onData, happens]
  rfl

theorem outcome_useStorage_error {α : Type} {env : Environment δ} {call : StorageCall}
    {ahead : Act δ Unit} {act : Act Storage α} {failure : Failure} {data : δ}
    (before : env.before call = World.onData ahead)
    (refuses : ahead.outcome w.data = (.error failure, data)) :
    (useStorage env call act).outcome w = (.error failure, { w with data }) := by
  rw [useStorage, before, Act.outcome_bind, World.outcome_onData, refuses]

/-- A record that is kept is counted and written; one that is refused leaves no trace. -/
theorem keep_progress (e : env.Within c) {type : RecordType} {record : Value}
    {result : Except Failure Unit}
    (h : w₀.Progress ticket tenant kept w)
    (run : (keep env ticket tenant type record).outcome w =
      (result, w')) :
    w₀.Progress ticket tenant (kept ++ (Call.keep type record).kept result) w' := by
  have refused : ∀ (failure : Failure) (data : δ), w₀.Progress ticket tenant
      (kept ++ (Call.keep type record).kept (.error failure)) { w with data } := by
    intro failure data
    rw [Call.kept, List.append_nil]
    exact h.withData data
  rcases ahead : c.writing.outcome w.data with ⟨failure | _, data⟩
  · rw [keep, Act.outcome_bind_error (outcome_useStorage_error e.save ahead)] at run
    cases run
    exact refused failure data
  · rw [keep, Act.outcome_bind, outcome_useStorage_ok e.save ahead] at run
    have holds := h.workspace.holds
    have sound := h.workspace.sound
    cases hline : Json.line type record with
    | error failure =>
      have save : (Storage.save tenant type record).outcome w.storage =
          (.error failure, w.storage) := by
        have := Storage.outcome_staged (s := w.storage)
          (Workspace.outcome_save_unwritten hline w.storage.workspace tenant type)
        rwa [Storage.withWorkspace_workspace] at this
      rw [save] at run
      cases run
      exact refused failure data
    | ok line =>
      have save : (Storage.save tenant type record).outcome w.storage = (.ok (),
          w.storage.withWorkspace (w.storage.workspace.withLine tenant type line)) :=
        Storage.outcome_staged (Workspace.outcome_save sound holds hline)
      have changed := h.workspace.trans (Workspace.withLine_changed sound holds type line)
      rw [save] at run
      dsimp only at run
      cases run
      obtain ⟨counted, ws, hs, _⟩ := h
      show w₀.Progress ticket tenant (kept ++ [(type, record)]) _
      refine ⟨⟨counted.registry, counted.time, counted.worker, counted.clock, ?_, ?_⟩,
        w.storage.workspace.withLine tenant type line, ?_, ?_⟩
      · show List.modify w.results ticket _ = _
        rw [counted.results, List.modify_modify_eq]
        congr 1
        funext r
        exact (JobResult.reported_concat r kept type record).symm
      · intro row hrow
        rcases List.mem_append.mp hrow with hrow | hrow
        · exact counted.writable row hrow
        · rw [List.mem_singleton.mp hrow]
          exact ⟨line, hline⟩
      · show w.storage.withWorkspace _ = _
        rw [hs, Storage.withWorkspace_withWorkspace, Storage.workspace_withWorkspace]
      · rw [Holding.written_append, Holding.written_singleton hline]
        exact changed

theorem keep_accepted (e : env.Within c)
    {type : RecordType} {record : Value} {line : String}
    (h : w₀.Progress ticket tenant kept w) (hline : Json.line type record = .ok line)
    (writing : (c.writing.outcome w.data).1 = .ok ()) :
    ∃ w', (keep env ticket tenant type record).outcome w = (.ok (), w') ∧
      w₀.Progress ticket tenant (kept ++ [(type, record)]) w' ∧
      w'.data = (c.writing.outcome w.data).2 := by
  have ahead : c.writing.outcome w.data = (.ok (), (c.writing.outcome w.data).2) := by
    rw [← writing]
  have save : (Storage.save tenant type record).outcome w.storage = (.ok (),
      w.storage.withWorkspace (w.storage.workspace.withLine tenant type line)) :=
    Storage.outcome_staged (Workspace.outcome_save h.workspace.sound h.workspace.holds hline)
  have run : (keep env ticket tenant type record).outcome w = (.ok (), World.report
      { w with
        data := (c.writing.outcome w.data).2
        storage := w.storage.withWorkspace (w.storage.workspace.withLine tenant type line) }
      ticket type) := by
    rw [keep, Act.outcome_bind, outcome_useStorage_ok e.save ahead, save]
    rfl
  exact ⟨_, run, keep_progress e h run, rfl⟩

theorem onData_progress {α : Type} {act : Act δ α} {result : Except Failure α}
    (h : w₀.Progress ticket tenant kept w) (run : (World.onData act).outcome w = (result, w')) :
    w₀.Progress ticket tenant kept w' := by
  rw [World.outcome_onData] at run
  cases run
  exact h.withData _

theorem perform_progress (e : env.Within c) {call : Call} {result : Except Failure call.Reply}
    (h : w₀.Progress ticket tenant kept w)
    (run : ((ports env ticket tenant).perform call).outcome w =
      (result, w')) :
    w₀.Progress ticket tenant (kept ++ call.kept result) w' := by
  have nothing : ∀ {call : Call}, call.record? = none → ∀ result : Except Failure call.Reply,
      kept ++ call.kept result = kept := by
    intro call hnone result
    cases result <;> simp [Call.kept, hnone]
  cases call with
  | keep type record => exact keep_progress e h run
  | serve type =>
    rw [nothing rfl]
    rw [show (ports env ticket tenant).perform (.serve type) =
      Act.settle (env.plan.catalogue.serving type) from rfl, Act.outcome_settle] at run
    cases run
    exact h
  | ask q =>
    rw [nothing rfl]
    rw [show (ports env ticket tenant).perform (.ask q) = World.onData (c.ask q) from e.ask q]
      at run
    exact onData_progress h run
  | await owner entity timeout =>
    rw [nothing rfl]
    rw [JobPorts.perform, Act.outcome_bind] at run
    rw [show (ports env ticket tenant).ask (.latest owner entity) =
      World.onData (c.ask (.latest owner entity)) from e.ask _] at run
    rcases hask : (World.onData (c.ask (.latest owner entity))).outcome w with
      ⟨failure | telemetry, w₁⟩
    · rw [hask] at run
      cases run
      exact onData_progress h hask
    · rw [hask] at run
      cases run
      exact onData_progress h hask
  | now =>
    rw [nothing rfl]
    rw [show (ports env ticket tenant).perform .now = World.onData c.now from e.now] at run
    exact onData_progress h run

theorem run_progress (e : env.Within c) {α : Type} (d : Dialogue α)
    (h : w₀.Progress ticket tenant kept w) :
    w₀.Progress ticket tenant
      (kept ++ d.saved (ports env ticket tenant) w)
      ((d.run (ports env ticket tenant)).outcome w).2 :=
  Dialogue.run_invariant (P := fun kept w => w₀.Progress ticket tenant kept w)
    (fun _ _ _ _ _ h run => perform_progress e h run) d h

end Service

end Handover

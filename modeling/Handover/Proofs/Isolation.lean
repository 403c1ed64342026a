import Handover.Proofs.Alike
import Handover.Proofs.ExportContent
import Handover.Proofs.Windows

namespace Handover

namespace Store

/-- Whether an entity of a tenant carries an identity. -/
def Carries (s : Store) (owner : Uuid) (entity : EntityId) : Prop :=
  ∃ category, ∃ record ∈ s.entities owner category, record.entityId? = some entity

/-- Whether two stores agree on what is a tenant's own: its record, its entities, what is related to
them, its events of them and its audit logs. They have partitions with the same starts. -/
structure Agree (owner : Uuid) (s s' : Store) : Prop where
  tenant : s'.tenant? owner = s.tenant? owner
  entities : ∀ category, s'.entities owner category = s.entities owner category
  relations : ∀ entity, s.Carries owner entity → s'.relations entity = s.relations entity
  attributes : ∀ entity, s.Carries owner entity → ∀ scope,
    s'.attributes entity scope = s.attributes entity scope
  latest : ∀ entity, s.Carries owner entity → s'.latest entity = s.latest entity
  events : ∀ entity, s.Carries owner entity → ∀ kind,
    s'.eventRows owner entity.id kind = s.eventRows owner entity.id kind
  auditLogs : s'.auditRows owner = s.auditRows owner
  partitions : ∀ table start, start ∈ s'.partitions table ↔ start ∈ s.partitions table

end Store

namespace Dialogue

variable {α β : Type} {answer : (c : Call) → Option (Except Failure c.Reply)}

/-- The dialogue in which nothing is left to ask. -/
def settled : Except Failure α → Dialogue α
  | .ok a => done a
  | .error failure => failed failure

theorem answered_perform {c : Call} {result : Except Failure c.Reply}
    (h : answer c = some result) : (perform c).answered answer = settled result := by
  rw [perform, answered, h]
  cases result <;> rfl

theorem visitRows_congr {visit visit' : β → Dialogue Bool} {rows : List β}
    (h : ∀ row ∈ rows, visit' row = visit row) :
    Pager.visitRows visit' rows = Pager.visitRows visit rows := by
  induction rows with
  | nil => rfl
  | cons row rest ih =>
    obtain ⟨first, others⟩ := List.forall_mem_cons.mp h
    rw [Pager.visitRows, Pager.visitRows, first, ih others]

theorem visitFrom_congr {visit visit' : β → Dialogue Bool} {rows : List β}
    (h : ∀ row ∈ rows, visit' row = visit row) (bound : Nat) (link : PageLink) :
    Pager.visitFrom (fun l => settled (Page.cut rows l)) visit' bound link =
      Pager.visitFrom (fun l => settled (Page.cut rows l)) visit bound link := by
  induction bound generalizing link with
  | zero => rfl
  | succ bound ih =>
    rw [Pager.visitFrom, Pager.visitFrom]
    rcases hcut : Page.cut rows link with failure | page
    · rfl
    · have within : ∀ row ∈ page.rows, row ∈ rows := by
        unfold Page.cut at hcut
        split at hcut
        next => cases hcut
        next =>
          cases hcut
          intro row hrow
          exact List.mem_of_mem_drop (List.mem_of_mem_take hrow)
      have visits := visitRows_congr fun row hrow => h row (within row hrow)
      show (Pager.visitRows visit' page.rows >>= _) = (Pager.visitRows visit page.rows >>= _)
      rw [visits, ih]

/-- Reading the pages of some rows goes by what is done with each of these rows. -/
theorem forEach_congr {visit visit' : β → Dialogue Unit} {rows : List β}
    (h : ∀ row ∈ rows, visit' row = visit row) (bound : Nat) (size : Int) :
    Pager.forEach bound size (fun l => settled (Page.cut rows l)) visit' =
      Pager.forEach bound size (fun l => settled (Page.cut rows l)) visit := by
  rw [Pager.forEach, Pager.forEach, Pager.visitPages, Pager.visitPages,
    visitFrom_congr fun row hrow => by rw [h row hrow]]

end Dialogue

namespace Job

variable {s s' : Store} {owner : Uuid} {catalogue : Catalogue} {now : Int} {entity : EntityId}
variable {plan : JobPlan} {bound : Nat}

theorem answered_left (s : Store) (type : RecordType) (record : Value) :
    (Dialogue.keep type record).answered (s.replies catalogue now) = .keep type record :=
  Dialogue.answered_perform_none rfl

section Agree

variable (agree : s.Agree owner s')
include agree

theorem answered_table_agree {fetch : TimePageLink → Dialogue (Page Value)}
    (fetches : ∀ window, (fetch window).answered (s'.replies catalogue now) =
      (fetch window).answered (s.replies catalogue now))
    (size : Int) (table : String) (type : RecordType) :
    (Partition.forEach bound size (.ask (.partitions table)) (.perform .now) fetch
        (.keep type)).answered (s'.replies catalogue now) =
      (Partition.forEach bound size (.ask (.partitions table)) (.perform .now) fetch
        (.keep type)).answered (s.replies catalogue now) := by
  have starts : ∀ s : Store, (Dialogue.ask (.partitions table)).answered
      (s.replies catalogue now) = pure (s.partitions table) :=
    fun _ => Dialogue.answered_perform_ok rfl
  have time : ∀ s : Store, (Dialogue.perform .now).answered (s.replies catalogue now) =
      pure now := fun _ => Dialogue.answered_perform_ok rfl
  simp only [Dialogue.answered_partition, starts, time, answered_left, fetches]
  rw [Partition.forEach, Partition.forEach, Partition.windows_pure, Partition.windows_pure,
    Partition.plan_congr (agree.partitions table)]

theorem answered_exportRelations_agree (carried : s.Carries owner entity) :
    (exportRelations owner entity).answered (s'.replies catalogue now) =
      (exportRelations owner entity).answered (s.replies catalogue now) := by
  have asked : ∀ s : Store, (Dialogue.ask (.relations owner entity)).answered
      (s.replies catalogue now) = pure (s.relations entity) :=
    fun _ => Dialogue.answered_perform_ok rfl
  simp only [exportRelations, Dialogue.answered_bind, asked, pure_bind, Dialogue.answered_forM,
    answered_left, agree.relations entity carried]

theorem answered_exportEvents_agree (carried : s.Carries owner entity) (size : Int) :
    (exportEvents bound size owner entity).answered (s'.replies catalogue now) =
      (exportEvents bound size owner entity).answered (s.replies catalogue now) := by
  rw [exportEvents, Dialogue.answered_forM, Dialogue.answered_forM]
  refine forM_congr fun kind _ => answered_table_agree agree (fun window => ?_) size _ _
  have same : s'.events owner entity.id kind window = s.events owner entity.id kind window := by
    rw [Store.events_eq, Store.events_eq, agree.events entity carried kind]
  rw [Dialogue.ask, Dialogue.answered_perform rfl, Dialogue.answered_perform rfl, Store.answer,
    Store.answer, same]

theorem answered_exportAuditLogs_agree (size : Int) :
    (exportAuditLogs bound size owner).answered (s'.replies catalogue now) =
      (exportAuditLogs bound size owner).answered (s.replies catalogue now) := by
  refine answered_table_agree agree (fun window => ?_) size _ _
  have same : s'.auditLogs owner window = s.auditLogs owner window := by
    rw [Store.auditLogs_eq, Store.auditLogs_eq, agree.auditLogs]
  rw [Dialogue.ask, Dialogue.answered_perform rfl, Dialogue.answered_perform rfl, Store.answer,
    Store.answer, same]

theorem answered_exportAttributes_agree (carried : s.Carries owner entity) :
    (exportAttributes owner entity).answered (s'.replies catalogue now) =
      (exportAttributes owner entity).answered (s.replies catalogue now) := by
  have asked : ∀ (s : Store) scope, (Dialogue.ask (.attributes owner entity scope)).answered
      (s.replies catalogue now) = pure (s.attributes entity scope) :=
    fun _ _ => Dialogue.answered_perform_ok rfl
  simp only [exportAttributes, Dialogue.answered_forM, Dialogue.answered_bind, asked, pure_bind,
    answered_left, agree.attributes entity carried]

theorem answered_exportLatest_agree (carried : s.Carries owner entity) (timeout : Value) :
    (exportLatest timeout owner entity).answered (s'.replies catalogue now) =
      (exportLatest timeout owner entity).answered (s.replies catalogue now) := by
  have awaited : ∀ s : Store, (Dialogue.perform (.await owner entity timeout)).answered
      (s.replies catalogue now) = pure (s.latest entity) :=
    fun _ => Dialogue.answered_perform_ok rfl
  simp only [exportLatest, Dialogue.answered_bind, awaited, pure_bind, Dialogue.answered_forM,
    answered_left, agree.latest entity carried]

theorem answered_exportRelated_agree (carried : s.Carries owner entity) (r : Related) :
    (exportRelated plan bound owner entity r).answered (s'.replies catalogue now) =
      (exportRelated plan bound owner entity r).answered (s.replies catalogue now) := by
  cases r with
  | relations => exact answered_exportRelations_agree agree carried
  | events => exact answered_exportEvents_agree agree carried plan.eventPageSize
  | attributes => exact answered_exportAttributes_agree agree carried
  | latest => exact answered_exportLatest_agree agree carried plan.telemetryTimeout

theorem answered_exportEntity_agree {category : RecordType} {record : Value}
    (owned : record ∈ s.entities owner category) (skipped : List RecordType) (type : RecordType) :
    (exportEntity plan bound owner skipped type record).answered (s'.replies catalogue now) =
      (exportEntity plan bound owner skipped type record).answered (s.replies catalogue now) := by
  rw [exportEntity, Dialogue.answered_bind, Dialogue.answered_bind, answered_left, answered_left]
  congr 1
  funext _
  cases identity : record.entityId? with
  | none => rfl
  | some entity =>
    have carried : s.Carries owner entity := ⟨category, record, owned, identity⟩
    rw [Dialogue.answered_forM, Dialogue.answered_forM]
    exact forM_congr fun r _ => answered_exportRelated_agree agree carried r

theorem answered_exportCategory_agree (skipped : List RecordType) (type : RecordType) :
    (exportCategory plan bound owner skipped type).answered (s'.replies catalogue now) =
      (exportCategory plan bound owner skipped type).answered (s.replies catalogue now) := by
  have served : ∀ s : Store, (Dialogue.perform (.serve type)).answered (s.replies catalogue now) =
      .settled (catalogue.serving type) := fun _ => Dialogue.answered_perform rfl
  rw [exportCategory, Dialogue.answered_bind, Dialogue.answered_bind, served, served]
  rcases catalogue.serving type with failure | category
  · rfl
  have fetched : ∀ (s : Store) link, (Dialogue.ask (.entities category owner link)).answered
      (s.replies catalogue now) = .settled (Page.cut (s.entities owner category) link) :=
    fun _ _ => Dialogue.answered_perform rfl
  show Dialogue.answered _ (Pager.forEach bound plan.entityPageSize _ _) =
    Dialogue.answered _ (Pager.forEach bound plan.entityPageSize _ _)
  simp only [Dialogue.answered_forEach, fetched, agree.entities]
  exact Dialogue.forEach_congr (fun record owned =>
    answered_exportEntity_agree agree owned skipped type) bound plan.entityPageSize

/-- What an export of a tenant still has to do when one of two stores that agree on the tenant has
answered it does not tell which. -/
theorem answered_exportTenant_agree {tenant : Tenant} (owns : tenant.id = owner)
    (skipped : List RecordType) :
    (exportTenant plan bound tenant skipped).answered (s'.replies catalogue now) =
      (exportTenant plan bound tenant skipped).answered (s.replies catalogue now) := by
  subst owns
  have categories : ((RecordType.categories skipped).forM
        (exportCategory plan bound tenant.id skipped)).answered (s'.replies catalogue now) =
      ((RecordType.categories skipped).forM
        (exportCategory plan bound tenant.id skipped)).answered (s.replies catalogue now) := by
    rw [Dialogue.answered_forM, Dialogue.answered_forM]
    exact forM_congr fun type _ => answered_exportCategory_agree agree skipped type
  have audited : (exportAuditLogs bound plan.eventPageSize tenant.id).answered
        (s'.replies catalogue now) =
      (exportAuditLogs bound plan.eventPageSize tenant.id).answered (s.replies catalogue now) :=
    answered_exportAuditLogs_agree agree plan.eventPageSize
  simp only [exportTenant, traverse, Dialogue.answered_bind, answered_left, categories,
    Dialogue.answered_ite, audited, Dialogue.answered_pure]

end Agree

end Job

namespace Service

open Act (Parallel)

variable {s s' : Store} {owner : Uuid} {plan : JobPlan} {now : Int} {allows : Bool} {bound : Nat}
variable {ticket : Nat} {tenant : Tenant} {skipped : List RecordType} {w v : World Store}

/-- Whether two worlds differ in their data alone, which are the two stores. -/
abbrev Swapped (s s' : Store) : World Store → World Store → Prop :=
  World.Alike (fun data data' => data = s ∧ data' = s') Eq

theorem swapped (w : World Store) (s' : Store) : Swapped w.data s' w { w with data := s' } :=
  ⟨s', w.storage, rfl, ⟨rfl, rfl⟩, rfl⟩

theorem Swapped.eq (h : Swapped s s' w v) : v = { w with data := s' } := by
  obtain ⟨_, _, rfl, ⟨_, rfl⟩, rfl⟩ := h
  rfl

theorem useStorage_swapped {α : Type} (call : StorageCall) (act : Act Storage α) :
    Parallel (Swapped s s') (useStorage (.ofStore plan now allows bound) call act)
      (useStorage (.ofStore plan now allows bound) call act) := by
  refine useStorage_parallel (.pure ()) ?_
  rintro storage _ rfl
  exact ⟨rfl, rfl⟩

theorem keep_swapped (ticket : Nat) (owner : Uuid) (type : RecordType) (record : Value) :
    Parallel (Swapped s s') (keep (.ofStore plan now allows bound) ticket owner type record)
      (keep (.ofStore plan now allows bound) ticket owner type record) := by
  have reported : (modify fun w => w.report ticket type : Act (World Store) PUnit).Blind :=
    fun _ _ _ => rfl
  exact (useStorage_swapped .save _).bind fun _ => reported.parallel

theorem content_swapped (agree : s.Agree tenant.id s') (h : Swapped s s' w v) :
    let env := Environment.ofStore plan now allows bound
    let d := content env tenant skipped
    let collaborators := ports env ticket tenant.id
    ((d.run collaborators).outcome v).1 = ((d.run collaborators).outcome w).1 ∧
      Swapped s s' ((d.run collaborators).outcome w).2 ((d.run collaborators).outcome v).2 ∧
      d.saved collaborators v = d.saved collaborators w := by
  intro env d collaborators
  have data : w.data = s ∧ v.data = s' := by
    obtain ⟨_, _, rfl, ⟨hs, rfl⟩, _⟩ := h
    exact ⟨hs, rfl⟩
  have own : ((d.answered (s.replies plan.catalogue now)).run collaborators).outcome w =
        (d.run collaborators).outcome w ∧
      (d.answered (s.replies plan.catalogue now)).saved collaborators w =
        d.saved collaborators w :=
    Dialogue.run_answered (I := fun w => w.data = s) (fun _ _ _ h given => ports_replies h given)
      (fun _ _ h left => ports_keep_data h left) d data.1
  have other : ((d.answered (s'.replies plan.catalogue now)).run collaborators).outcome v =
        (d.run collaborators).outcome v ∧
      (d.answered (s'.replies plan.catalogue now)).saved collaborators v =
        d.saved collaborators v :=
    Dialogue.run_answered (I := fun w => w.data = s') (fun _ _ _ h given => ports_replies h given)
      (fun _ _ h left => ports_keep_data h left) d data.2
  have left : d.answered (s'.replies plan.catalogue now) =
      d.answered (s.replies plan.catalogue now) :=
    Job.answered_exportTenant_agree agree rfl skipped
  have perform : ∀ call, s.replies plan.catalogue now call = none →
      Parallel (Swapped s s') (collaborators.perform call) (collaborators.perform call) := by
    intro call unanswered
    cases call with
    | keep type record => exact keep_swapped ticket tenant.id type record
    | _ => cases unanswered
  have both := Dialogue.run_parallel perform d h
  rwa [← left, other.1, other.2, left, own.1, own.2] at both

theorem exportTenant_swapped (agree : s.Agree tenant.id s') :
    Parallel (Swapped s s')
      (exportTenant (.ofStore plan now allows bound) ticket tenant skipped)
      (exportTenant (.ofStore plan now allows bound) ticket tenant skipped) := by
  refine (useStorage_swapped .prepare _).bind fun _ => ?_
  refine .bind ?_ fun _ => useStorage_swapped .pack _
  refine .followedBy (fun w v h => ?_) (useStorage_swapped .close _)
  obtain ⟨answer, related, _⟩ := content_swapped agree h
  exact ⟨answer, related⟩

theorem savedBy_swapped (agree : s.Agree tenant.id s') (h : Swapped s s' w v) :
    savedBy (.ofStore plan now allows bound) ticket tenant skipped v =
      savedBy (.ofStore plan now allows bound) ticket tenant skipped w := by
  have started : Swapped s s' (w.started ticket) (v.started ticket) :=
    ((markResult_blind ticket .running).parallel w v h).2
  have begun : Swapped s s' ((w.started ticket).begun tenant.id)
      ((v.started ticket).begun tenant.id) := by
    rw [started.eq]
    obtain ⟨_, _, _, ⟨hs, _⟩, _⟩ := started
    exact ⟨s', _, rfl, ⟨hs, rfl⟩, rfl⟩
  exact (content_swapped agree begun).2.2

end Service

end Handover

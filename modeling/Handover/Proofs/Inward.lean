import Handover.Proofs.Parallel
import Handover.Proofs.Reclaim

namespace Handover

namespace FileTree

/-- The path below a folder to which steps lead from another one there, unless they lead out of the
folder. -/
def innerPath? : Path → List String → Option Path
  | here, [] => some here
  | here, step :: rest =>
    if step = ".." then if here = [] then none else innerPath? here.dropLast rest
    else innerPath? (here ++ [step]) rest

variable {t t' : FileTree} {root here inner : Path} {steps : List String}

/-- Steps that stay in a folder lead where they seem to lead. -/
theorem lexical_inner (plain : ".." ∉ root) (h : innerPath? [] steps = some inner) :
    lexical (root ++ steps) = root ++ inner := by
  suffices below : ∀ here, innerPath? here steps = some inner →
      steps.foldl (fun here step => if step = ".." then here.dropLast else here ++ [step])
        (root ++ here) = root ++ inner by
    have start : lexical root = root := lexical_plain plain
    rw [lexical] at start
    rw [lexical, List.foldl_append, start]
    simpa using below [] h
  clear h
  intro here h
  induction steps generalizing here with
  | nil => rw [List.foldl_nil, Option.some.inj h]
  | cons step rest ih =>
    rw [innerPath?] at h
    rw [List.foldl_cons]
    split at h
    next up =>
      split at h
      next => cases h
      next deep => rw [if_pos up, List.dropLast_append_of_ne_nil deep, ih _ h]
    next down => rw [if_neg down, List.append_assoc, ih _ h]

theorem walk_append (t : FileTree) (here : Path) (steps more : List String) :
    t.walk here (steps ++ more) = t.walk here steps >>= fun there => t.walk there more := by
  induction steps generalizing here with
  | nil => rfl
  | cons step rest ih =>
    rw [List.cons_append, walk, walk]
    split
    next => rfl
    next => exact ih _
    next => rfl

/-- What is found lies where the steps seem to lead. -/
theorem of_find {path : Path} {node : Node} (h : t.find steps = .ok (path, node)) :
    path = lexical steps ∧ t.node? path = some node := by
  cases walked : t.walk [] steps with
  | error fault =>
    rw [find, walked] at h
    cases h
  | ok reached =>
    simp only [find, walked, bind, Except.bind] at h
    split at h
    next there =>
      cases h
      exact ⟨(lexical_of_walk walked).symm, there⟩
    next => cases h

/-- Whether two trees have the same below a folder, to which folders lead in both. -/
structure AgreeBelow (root : Path) (t t' : FileTree) : Prop where
  distinct : t.Distinct
  distinct' : t'.Distinct
  leads : t.LeadsTo root
  leads' : t'.LeadsTo root
  nodes : ∀ rest, t'.node? (root ++ rest) = t.node? (root ++ rest)

theorem Distinct.write {node : Node} {u : FileTree} (h : t.Distinct)
    (written : t.write steps node = .ok u) : u.Distinct := by
  cases walked : t.walk [] steps with
  | error fault =>
    rw [FileTree.write, walked] at written
    cases written
  | ok path =>
    simp only [FileTree.write, walked, bind, Except.bind] at written
    split at written
    next => cases written
    next unfoldered =>
      cases written
      refine h.put path node fun root => unfoldered ?_
      rw [root, node?_nil]

namespace AgreeBelow

variable (h : AgreeBelow root t t') (plain : ".." ∉ root)
include h

theorem walk_here (stays : innerPath? here steps = some inner) :
    t'.walk (root ++ here) steps = t.walk (root ++ here) steps := by
  induction steps generalizing here with
  | nil => rfl
  | cons step rest ih =>
    rw [innerPath?] at stays
    rw [FileTree.walk, FileTree.walk, h.nodes here]
    split
    next => rfl
    next =>
      split at stays
      next up =>
        split at stays
        next => cases stays
        next deep =>
          rw [if_pos up, List.dropLast_append_of_ne_nil deep]
          exact ih stays
      next down =>
        rw [if_neg down, List.append_assoc]
        exact ih stays
    next => rfl

include plain

theorem walk (stays : innerPath? [] steps = some inner) :
    t'.walk [] (root ++ steps) = t.walk [] (root ++ steps) := by
  rw [walk_append, walk_append, h.leads.walk plain, h.leads'.walk plain]
  have same := h.walk_here stays
  rw [List.append_nil] at same
  exact same

theorem find (stays : innerPath? [] steps = some inner) :
    t'.find (root ++ steps) = t.find (root ++ steps) := by
  rw [FileTree.find, FileTree.find, h.walk plain stays]
  cases walked : t.walk [] (root ++ steps) with
  | error fault => rfl
  | ok path =>
    obtain rfl : path = root ++ inner :=
      (lexical_of_walk walked).symm.trans (lexical_inner plain stays)
    simp only [bind, Except.bind, h.nodes]

/-- What is written in one of the trees is written in the other one, or neither is. -/
theorem write (stays : innerPath? [] steps = some inner) (node : Node) :
    (∃ fault, t.write (root ++ steps) node = .error fault ∧
        t'.write (root ++ steps) node = .error fault) ∨
      ∃ u u', t.write (root ++ steps) node = .ok u ∧ t'.write (root ++ steps) node = .ok u' ∧
        AgreeBelow root u u' := by
  have same : (t'.write (root ++ steps) node).map (fun _ => ()) =
      (t.write (root ++ steps) node).map fun _ => () := by
    rw [FileTree.write, FileTree.write, h.walk plain stays]
    cases walked : t.walk [] (root ++ steps) with
    | error fault => rfl
    | ok path =>
      obtain rfl : path = root ++ inner :=
        (lexical_of_walk walked).symm.trans (lexical_inner plain stays)
      simp only [bind, Except.bind, h.nodes]
      split <;> rfl
  have leads : ∀ {t u : FileTree}, t.LeadsTo root → t.write (root ++ steps) node = .ok u →
      u.LeadsTo root := by
    intro t u leads written above hp hne
    rw [node?_of_write written, lexical_inner plain stays, if_neg, leads above hp hne]
    rintro rfl
    exact hne (hp.eq_of_length_le (List.prefix_append _ _).length_le)
  rcases written : t.write (root ++ steps) node with fault | u <;>
    rcases written' : t'.write (root ++ steps) node with fault' | u' <;>
      rw [written, written'] at same <;> cases same
  · exact .inl ⟨fault, rfl, rfl⟩
  · refine .inr ⟨u, u', rfl, rfl, h.distinct.write written, h.distinct'.write written',
      leads h.leads written, leads h.leads' written', fun rest => ?_⟩
    rw [node?_of_write written, node?_of_write written', h.nodes]

omit plain

theorem removeTree (unrooted : root ≠ []) (rest : Path) :
    AgreeBelow root (t.removeTree (root ++ rest)) (t'.removeTree (root ++ rest)) := by
  have gone : root ++ rest ≠ [] := fun nil => unrooted (List.append_eq_nil_iff.mp nil).1
  have leads : ∀ {t : FileTree}, t.LeadsTo root → (t.removeTree (root ++ rest)).LeadsTo root := by
    intro t leads above hp hne
    rw [node?_removeTree t gone, if_neg, leads above hp hne]
    intro below
    exact hne (hp.eq_of_length_le ((List.prefix_append _ _).trans below).length_le)
  refine ⟨h.distinct.removeTree _, h.distinct'.removeTree _, leads h.leads, leads h.leads',
    fun more => ?_⟩
  rw [node?_removeTree t gone, node?_removeTree t' gone, h.nodes]

/-- The names in a folder are the same, in some order. -/
theorem childNames (rest : Path) :
    (t'.childNames (root ++ rest)).Perm (t.childNames (root ++ rest)) := by
  refine (List.perm_ext_iff_of_nodup (h.distinct'.childNames _) (h.distinct.childNames _)).mpr
    fun name => ?_
  rw [mem_childNames, mem_childNames, List.append_assoc, h.nodes]

end AgreeBelow

end FileTree

namespace Workspace

/-- Whether a name leads from a folder to a place in it, and never out of it on the way. -/
def LeadsInside (name : String) : Prop :=
  isAbsolute name = false ∧ FileTree.innerPath? [] (stepsOf name) ≠ none

instance (name : String) : Decidable (LeadsInside name) :=
  inferInstanceAs (Decidable (_ ∧ _))

variable {w v w' : Workspace} {tenant : Uuid}

theorem LeadsInside.archiveSteps_eq (named : LeadsInside w.archiveName) (tenant : Uuid) :
    w.archiveSteps tenant = w.tenantPath tenant ++ stepsOf w.archiveName := by
  rw [archiveSteps, named.1]
  rfl

theorem LeadsInside.exists_inner {name : String} (named : LeadsInside name) :
    ∃ inner, FileTree.innerPath? [] (stepsOf name) = some inner :=
  Option.ne_none_iff_exists'.mp named.2

theorem LeadsInside.contained (named : LeadsInside w.archiveName) (plain : ".." ∉ w.base) :
    w.Contained where
  plain := plain
  inside tenant := by
    obtain ⟨inner, stays⟩ := named.exists_inner
    rw [named.archiveSteps_eq, FileTree.lexical_inner (plain_tenantPath plain tenant) stays]
    exact List.prefix_append _ _

/-- The members of an archive of a folder are those files in it, whatever the order in which these
are listed. -/
theorem membersOf_agree {root : Path} {t t' : FileTree} (h : t.AgreeBelow root t') (rest : Path)
    (archivePath : Path) :
    membersOf t' (root ++ rest) archivePath = membersOf t (root ++ rest) archivePath := by
  have names : (((t'.childNames (root ++ rest)).filter fun name =>
        name.endsWith ".jsonl").mergeSort fun a b => a ≤ b) =
      ((t.childNames (root ++ rest)).filter fun name =>
        name.endsWith ".jsonl").mergeSort fun a b => a ≤ b := by
    have perm := (h.childNames rest).filter fun name => name.endsWith ".jsonl"
    exact List.Perm.eq_of_pairwise (fun _ _ _ _ => String.le_antisymm)
      (Holding.pairwise_mergeSort_key id _) (Holding.pairwise_mergeSort_key id _)
      ((List.mergeSort_perm _ _).trans (perm.trans (List.mergeSort_perm _ _).symm))
  have texts : ∀ name, textAt t' (root ++ rest ++ [name]) = textAt t (root ++ rest ++ [name]) := by
    intro name
    rw [textAt, textAt, List.append_assoc, h.nodes]
  simp only [membersOf, names, texts]

/-- Two workspaces in the same place that have the same in the folder of a tenant, where their
archives lie. -/
structure Twin (tenant : Uuid) (w v : Workspace) : Prop extends w.SameSite v where
  plain : ".." ∉ w.base
  named : LeadsInside w.archiveName
  trees : w.tree.AgreeBelow (w.tenantPath tenant) v.tree

/-- Whether an archive is found for a tenant. -/
def Offers (w : Workspace) (tenant : Uuid) (members : Archive) : Prop :=
  ∃ path, w.tree.find (w.archiveSteps tenant) = .ok (path, .archive members)

theorem Offers.archiveAt (h : w.Offers tenant members) : w.archiveAt tenant = .ok members := by
  obtain ⟨path, found⟩ := h
  rw [Workspace.archiveAt, found]
  rfl

theorem Offers.outcome_fetch (h : w.Offers tenant members) :
    (fetch tenant).outcome w = (.ok members, w) := by
  obtain ⟨path, found⟩ := h
  have here : w.tree.exists? (w.archiveSteps tenant) = true := by
    rw [FileTree.exists?, found]
  have at_ : w.archiveAt tenant = .ok members := Offers.archiveAt ⟨path, found⟩
  rw [fetch, Act.outcome_bind_ok (Act.outcome_get w), if_pos here, at_]
  rfl

namespace Twin

theorem archiveSteps (h : Twin tenant w v) : v.archiveSteps tenant = w.archiveSteps tenant := by
  rw [Workspace.archiveSteps, Workspace.archiveSteps, h.archiveName, h.tenantPath]

theorem offers (h : Twin tenant w v) (own : w.Offers tenant members) :
    v.Offers tenant members := by
  obtain ⟨inner, stays⟩ := h.named.exists_inner
  obtain ⟨path, found⟩ := own
  refine ⟨path, ?_⟩
  rw [h.archiveSteps, h.named.archiveSteps_eq,
    h.trees.find (plain_tenantPath h.plain tenant) stays, ← h.named.archiveSteps_eq, found]

end Twin

open Act (Parallel)

theorem pack_parallel (tenant : Uuid) :
    Parallel (Twin tenant) (pack tenant) (pack tenant) := by
  have closed : Parallel (Twin tenant) (modify fun w => w.closed tenant)
      (modify fun w => w.closed tenant) := fun w v h =>
    ⟨rfl, ⟨h.base, h.archiveName⟩, h.plain, h.named, h.trees⟩
  refine closed.bind fun _ => .get_bind fun w v h => ?_
  have plain := plain_tenantPath h.plain tenant
  obtain ⟨inner, stays⟩ := h.named.exists_inner
  have data : v.dataPath tenant = w.dataPath tenant := by
    rw [dataPath, dataPath, h.tenantPath]
  dsimp only
  rw [h.archiveSteps, data, h.named.archiveSteps_eq]
  obtain ⟨fault, refused, refused'⟩ | ⟨begun, begun', begins, begins', agree⟩ :=
    h.trees.write plain stays (.archive [])
  · rw [refused, refused']
    exact .throw _
  rw [begins, begins']
  dsimp only
  have members := membersOf_agree agree ["data"]
    (FileTree.lexical (w.tenantPath tenant ++ stepsOf w.archiveName))
  rw [show membersOf begun' (w.dataPath tenant) _ = _ from members]
  obtain ⟨fault, refused, refused'⟩ | ⟨written, written', writes, writes', agree⟩ :=
    agree.write plain stays (.archive (membersOf begun (w.tenantPath tenant ++ ["data"])
      (FileTree.lexical (w.tenantPath tenant ++ stepsOf w.archiveName))))
  · rw [dataPath, refused, refused']
    exact .throw _
  rw [dataPath, writes, writes']
  dsimp only
  have left := agree.removeTree (w.tenantPath_ne_nil tenant) ["data"]
  have twin : Twin tenant (removed { w with tree := written } (w.tenantPath tenant ++ ["data"]))
      (removed { v with tree := written' } (w.tenantPath tenant ++ ["data"])) :=
    ⟨⟨h.base, h.archiveName⟩, h.plain, h.named, left⟩
  refine (Parallel.set twin).bind fun _ => ?_
  have found := left.find plain stays
  rw [removed, removed]
  dsimp only
  rw [found]
  rcases (written.removeTree (w.tenantPath tenant ++ ["data"])).find
    (w.tenantPath tenant ++ stepsOf w.archiveName) with fault | _
  · exact .throw _
  · exact .pure ()

/-- Files that have been packed can be fetched as an archive. -/
theorem pack_offers (run : (pack tenant).outcome w = (.ok (), w')) :
    ∃ members, w'.Offers tenant members := by
  rw [pack, Act.outcome_bind_ok (Act.outcome_modify _ _),
    Act.outcome_bind_ok (Act.outcome_get _)] at run
  dsimp only at run
  split at run
  next => cases run
  next begun _ =>
    split at run
    next => cases run
    next written writes =>
      rw [Act.outcome_bind_ok (Act.outcome_set _ _)] at run
      split at run
      next found finds =>
        cases run
        obtain ⟨path, node⟩ := found
        obtain ⟨rfl, there⟩ := FileTree.of_find finds
        rw [removed, FileTree.node?_removeTree _ (Workspace.dataPath_ne_nil _ tenant)] at there
        split at there
        next => cases there
        next =>
          rw [FileTree.node?_of_write writes, if_pos rfl] at there
          cases there
          exact ⟨_, _, finds⟩
      next => cases run

end Workspace

end Handover

import Handover.Proofs.Matching
import Handover.Proofs.Reading

namespace Handover.Value

variable {v w k : Value} {items fields : List Value} {entries : List (Value × Value)}
variable {shape : Shape}

theorem unhashableAmong?_eq_none : unhashableAmong? items = none ↔
    ∀ v ∈ items, unhashable? v = none := by
  induction items with
  | nil => simp [unhashableAmong?]
  | cons v rest ih => simp [unhashableAmong?, ih]

theorem fieldNames_distinct (shape : Shape) : shape.fieldNames.Nodup := by
  cases shape <;> decide

theorem fieldEntries_eq (shape : Shape) (fields : List Value) :
    fieldEntries shape fields = named (shape.fieldNames.zip fields) := by
  rw [fieldEntries, named, List.map_zip_eq_zipWith]
  rfl

/-- Entries by text, the later ones put among the earlier ones. -/
def merged (rows done : List (String × Value)) : List (String × Value) :=
  rows.foldl (fun done row => putText row.1 row.2 done) done

theorem merged_distinct {rows done : List (String × Value)}
    (distinct : ((done ++ rows).map (·.1)).Nodup) : merged rows done = done ++ rows := by
  induction rows generalizing done with
  | nil => exact (List.append_nil done).symm
  | cons row rest ih =>
    have fresh : row.1 ∉ done.map (·.1) := fun hm => by
      rw [List.map_append, List.nodup_append] at distinct
      exact distinct.2.2 _ hm _ List.mem_cons_self rfl
    rw [merged, List.foldl_cons, putText_fresh fresh]
    exact (ih (by simpa using distinct)).trans (by simp)

/-- The fields of a key that is a record, and the items of one that is a tuple, can be keys. -/
theorem hashable_of_copiedPart (hashable : unhashable? k = none) (hv : v ∈ k.copiedParts) :
    unhashable? v = none := by
  cases k with
  | list | dict => cases hashable
  | tuple items => exact unhashableAmong?_eq_none.mp hashable v hv
  | record shape fields =>
    cases frozen : shape.isFrozen with
    | true =>
      have each : unhashableAmong? fields = none := by simpa [unhashable?, frozen] using hashable
      exact unhashableAmong?_eq_none.mp each v hv
    | false => simp [unhashable?, frozen] at hashable
  | _ => cases hv

/-- A key holds no dictionary that could lose a key of its own. -/
theorem not_losesKey_of_hashable (hashable : unhashable? k = none) : ¬k.LosesKey := by
  intro loses
  induction loses with
  | @here k has =>
    cases k with
    | dict => cases hashable
    | _ => exact has
  | there next _ ih => exact ih (hashable_of_copiedPart hashable next)

section Copies

variable [Copier]

mutual

/-- What is made plain in place of a value when a record around it has been copied: the deep copy,
but for records, which are copied once more when their turn comes. -/
def renewed : Value → Except Failure Value
  | list items => list <$> renewedItems items
  | tuple items => tuple <$> renewedItems items
  | dict entries => dict <$> renewedEntries entries
  | record shape fields => pure (record shape fields)
  | v => rebuilt v

def renewedItems : List Value → Except Failure (List Value)
  | [] => pure []
  | v :: rest => do
    let v' ← renewed v
    let rest' ← renewedItems rest
    pure (v' :: rest')

def renewedEntries : List (Value × Value) → Except Failure (List (Value × Value))
  | [] => pure []
  | (k, v) :: rest => do
    let k' ← rebuilt k
    let v' ← renewed v
    let rest' ← renewedEntries rest
    pure ((k', v') :: rest')

end

/-- Whether copying leaves a set in its order, and an object of an unknown type as it is. -/
def Settled : Value → Prop
  | set items | frozenSet items => Copier.order items = items
  | foreign object => Copier.foreign object = some object
  | _ => True

theorem renewedItems_eq_mapM (items : List Value) : renewedItems items = items.mapM renewed := by
  induction items with
  | nil => rfl
  | cons v rest ih => rw [renewedItems, List.mapM_cons, ih]

def renewedEntry (entry : Value × Value) : Except Failure (Value × Value) := do
  let k ← rebuilt entry.1
  let v ← renewed entry.2
  pure (k, v)

theorem renewedEntries_eq_mapM (entries : List (Value × Value)) :
    renewedEntries entries = entries.mapM renewedEntry := by
  induction entries with
  | nil => rfl
  | cons entry rest ih =>
    rw [renewedEntries, List.mapM_cons, ih]
    simp only [renewedEntry, bind_assoc, pure_bind]

theorem matches_of_renewed (run : renewed v = .ok w) : Matches v w := by
  induction v using by_pieces generalizing w with
  | next v ih =>
    cases v with
    | list vs =>
      obtain ⟨_, inner, rfl⟩ := ok_of_map run
      obtain ⟨pairs, rfl, rfl, each⟩ := exists_pairs
        (forall₂_of_mapM ((renewedItems_eq_mapM vs).symm.trans inner) fun u hu _ => ih u hu)
      exact .list pairs each
    | tuple vs =>
      obtain ⟨_, inner, rfl⟩ := ok_of_map run
      obtain ⟨pairs, rfl, rfl, each⟩ := exists_pairs
        (forall₂_of_mapM ((renewedItems_eq_mapM vs).symm.trans inner) fun u hu _ => ih u hu)
      exact .tuple pairs each
    | dict entries =>
      obtain ⟨_, inner, rfl⟩ := ok_of_map run
      have entry : ∀ e ∈ entries, ∀ copy, renewedEntry e = .ok copy →
          Matches e.1 copy.1 ∧ Matches e.2 copy.2 := by
        intro e he copy run
        obtain ⟨key, hk, run⟩ := ok_of_bind run
        obtain ⟨value, hv, run⟩ := ok_of_bind run
        cases run
        exact ⟨matches_of_rebuilt hk, ih _ (parts_subset_pieces _ (value_mem_parts he)) hv⟩
      obtain ⟨pairs, rfl, rfl, each⟩ := exists_pairs
        (forall₂_of_mapM ((renewedEntries_eq_mapM entries).symm.trans inner) entry)
      exact .dict pairs (fun pair hp => (each pair hp).1) fun pair hp => (each pair hp).2
    | record shape fields =>
      cases run
      exact .same _
    | _ => exact matches_of_rebuilt run

theorem copiedItems_eq_mapM (items : List Value) : copiedItems items = items.mapM copied := by
  induction items with
  | nil => rfl
  | cons v rest ih => rw [copiedItems, List.mapM_cons, ih]

def copiedEntry (entry : Value × Value) : Except Failure (Value × Value) := do
  let k ← copied entry.1
  let v ← copied entry.2
  requireKey k
  pure (k, v)

theorem copiedEntries_eq_mapM (entries : List (Value × Value)) :
    copiedEntries entries = entries.mapM copiedEntry := by
  induction entries with
  | nil => rfl
  | cons entry rest ih =>
    rw [copiedEntries, List.mapM_cons, ih]
    simp only [copiedEntry, bind_assoc, pure_bind]

/-- A copy of items that can be keys: those that hold a record are none in it, and without records
it is the deep copy. -/
theorem copiedItems_keys {copies : List Value} (run : items.mapM copied = .ok copies)
    (hashable : ∀ v ∈ items, unhashable? v = none)
    (lost : ∀ v ∈ items, ∀ v', copied v = .ok v' → HoldsRecord v → unhashable? v' = some "dict")
    (kept : ∀ v ∈ items, ¬HoldsRecord v → copied v = rebuilt v) :
    (∃ v ∈ items, HoldsRecord v) → unhashableAmong? copies = some "dict" := by
  induction items generalizing copies with
  | nil => simp
  | cons v rest ih =>
    rw [List.mapM_cons] at run
    obtain ⟨v', first, run⟩ := ok_of_bind run
    obtain ⟨rest', others, run⟩ := ok_of_bind run
    cases run
    rintro ⟨u, hu, holds⟩
    rw [unhashableAmong?]
    by_cases here : HoldsRecord v
    · rw [lost v List.mem_cons_self v' first here]
      rfl
    · have later : u ∈ rest := (List.mem_cons.mp hu).resolve_left fun same => here (same ▸ holds)
      have first' : Matches v v' :=
        matches_of_rebuilt ((kept v List.mem_cons_self here).symm.trans first)
      rw [← first'.unhashable?_eq, hashable v List.mem_cons_self]
      exact ih others (fun u hu => hashable u (List.mem_cons_of_mem _ hu))
        (fun u hu => lost u (List.mem_cons_of_mem _ hu))
        (fun u hu => kept u (List.mem_cons_of_mem _ hu)) ⟨u, later, holds⟩

/-- The copy of a key that holds a record is no key. -/
theorem unhashable_of_copied (hashable : unhashable? k = none) :
    (∀ k', copied k = .ok k' → HoldsRecord k → unhashable? k' = some "dict") ∧
      (¬HoldsRecord k → copied k = rebuilt k) := by
  induction k using by_pieces with
  | next k ih =>
    cases k with
    | list | set | dict => cases hashable
    | tuple items =>
      have each := unhashableAmong?_eq_none.mp hashable
      have kept : ∀ v ∈ items, ¬HoldsRecord v → copied v = rebuilt v := fun v hv =>
        (ih v hv (each v hv)).2
      constructor
      · intro k' run holds
        obtain ⟨copies, inner, rfl⟩ := ok_of_map run
        have some : ∃ v ∈ items, HoldsRecord v := by
          obtain _ | ⟨item, holds⟩ := holds
          exact ⟨_, item, holds⟩
        exact copiedItems_keys ((copiedItems_eq_mapM items).symm.trans inner) each
          (fun v hv => (ih v hv (each v hv)).1) kept some
      · intro free
        rw [copied, rebuilt, copiedItems_eq_mapM, rebuiltItems_eq_mapM,
          mapM_congr fun v hv => kept v hv fun holds => free (.tuple hv holds)]
    | record shape fields =>
      refine ⟨fun k' run _ => ?_, fun free => absurd (.record shape fields) free⟩
      obtain ⟨copies, _, rfl⟩ := ok_of_map run
      rfl
    | _ => exact ⟨fun _ _ => (by rintro ⟨⟩), fun _ => rfl⟩

theorem requireKey_failsIff {k' : Value} (hashable : unhashable? k = none)
    (run : copied k = .ok k') : FailsIff CopyFault (HoldsRecord k) (requireKey k') := by
  obtain ⟨lost, kept⟩ := unhashable_of_copied hashable
  by_cases holds : HoldsRecord k
  · rw [requireKey, lost k' run holds]
    exact .error holds (Or.inl rfl)
  · have same := (matches_of_rebuilt ((kept holds).symm.trans run)).unhashable?_eq
    rw [requireKey, ← same, hashable]
    exact .ok _ holds

theorem copiedEntry_failsIff {entry : Value × Value} (hashable : unhashable? entry.1 = none)
    (key : FailsIff CopyFault (entry.1.LosesKey ∨ entry.1.HoldsStuck) (copied entry.1))
    (value : FailsIff CopyFault (entry.2.LosesKey ∨ entry.2.HoldsStuck) (copied entry.2)) :
    FailsIff CopyFault ((HoldsRecord entry.1 ∨ entry.2.LosesKey) ∨
      (entry.1.HoldsStuck ∨ entry.2.HoldsStuck)) (copiedEntry entry) := by
  refine (key.bind fun k run => value.bind fun v _ =>
    (requireKey_failsIff hashable run).map fun _ => (k, v)).congr ?_
  have whole : ¬entry.1.LosesKey := not_losesKey_of_hashable hashable
  tauto

/-- A value is copied unless a dictionary in it loses a key or something in it cannot be copied. -/
theorem copied_failsIff (fits : v.WellFormed) :
    FailsIff CopyFault (v.LosesKey ∨ v.HoldsStuck) (copied v) := by
  induction fits with
  | @intro v here each ih =>
    have items : ∀ {f : List Value → Value}, ¬HasRecordKey v → ¬Stuck v →
        v.copiedParts = v.pieces → copied v = f <$> copiedItems v.pieces →
        FailsIff CopyFault (v.LosesKey ∨ v.HoldsStuck) (copied v) := by
      intro f noKey free parts run
      rw [run, copiedItems_eq_mapM]
      refine ((FailsIff.mapM (List.forall₂_same.mpr ih)).map f).congr ?_
      rw [LosesKey, HoldsStuck, leadsTo_parts_iff noKey, leadsTo_parts_iff free, parts]
      simp only [and_or_left, exists_or]
    have whole : ¬v.LosesKey → copied v = rebuilt v →
        FailsIff CopyFault (v.LosesKey ∨ v.HoldsStuck) (copied v) := fun keeps run =>
      run ▸ (rebuilt_failsIff v).congr (or_iff_right keeps).symm
    cases v with
    | list items' | tuple items' | record shape fields => exact items not_false not_false rfl rfl
    | dict entries =>
      have entry : ∀ e ∈ entries, FailsIff CopyFault
          ((HoldsRecord e.1 ∨ e.2.LosesKey) ∨ (e.1.HoldsStuck ∨ e.2.HoldsStuck)) (copiedEntry e) :=
        fun e he => copiedEntry_failsIff (here e he) (ih e.1 (key_mem_pieces he))
          (ih e.2 (parts_subset_pieces _ (value_mem_parts he)))
      rw [copied, copiedEntries_eq_mapM]
      refine ((FailsIff.mapM (List.forall₂_same.mpr entry)).map dict).congr ?_
      refine Iff.trans ?_ (or_congr losesKey_dict (leadsTo_dict not_false)).symm
      simp only [and_or_left, exists_or]
    | _ => exact whole (not_leadsTo rfl not_false) rfl

theorem plainItems_eq_mapM (items : List Value) : plainItems items = items.mapM plain := by
  induction items with
  | nil => rw [plainItems, List.mapM_nil]
  | cons v rest ih => rw [plainItems, List.mapM_cons, ih]

theorem plain_str (s : String) : plain (str s) = .ok (str s) := by
  simp only [plain]
  rfl

/-- The plain form of an entry, with the text that stands for its key. -/
def plainEntry (entry : Value × Value) : Except Failure (String × Value) := do
  let k ← plain entry.1
  let v ← plain entry.2
  pure (k.display, v)

theorem plainEntries_eq_mapM (entries : List (Value × Value)) (done : List (String × Value)) :
    plainEntries entries done = (merged · done) <$> entries.mapM plainEntry := by
  induction entries generalizing done with
  | nil =>
    rw [plainEntries, List.mapM_nil]
    rfl
  | cons entry rest ih =>
    obtain ⟨k, v⟩ := entry
    rw [plainEntries, List.mapM_cons, plainEntry]
    cases plain k with
    | error failure => rfl
    | ok k' =>
      cases plain v with
      | error failure => rfl
      | ok v' =>
        show plainEntries rest (putText k'.display v' done) =
          (merged · done) <$> (rest.mapM plainEntry >>= fun rows => pure ((k'.display, v') :: rows))
        rw [ih]
        cases rest.mapM plainEntry <;> rfl

theorem mapM_plainEntry_named (names : List String) (values : List Value)
    (length : names.length = values.length) :
    (named (names.zip values)).mapM plainEntry = names.zip <$> values.mapM plain := by
  induction values generalizing names with
  | nil =>
    rw [List.zip_nil_right]
    show pure [] = pure (names.zip [])
    rw [List.zip_nil_right]
  | cons v rest ih =>
    cases names with
    | nil => simp at length
    | cons name names =>
      rw [List.zip_cons_cons, named_cons, List.mapM_cons, List.mapM_cons,
        ih names (by simpa using length), plainEntry, plain_str]
      cases plain v with
      | error failure => rfl
      | ok v' => cases rest.mapM plain <;> rfl

theorem plain_fieldEntries (shape : Shape) (values : List Value)
    (length : values.length = shape.fieldNames.length) :
    plain (dict (fieldEntries shape values)) =
      (fun items => dict (fieldEntries shape items)) <$> values.mapM plain := by
  rw [plain, fieldEntries_eq, plainEntries_eq_mapM, mapM_plainEntry_named _ _ length.symm]
  cases run : values.mapM plain with
  | error failure => rfl
  | ok items =>
    have names : (shape.fieldNames.zip items).map (·.1) = shape.fieldNames :=
      List.map_fst_zip (Nat.le_of_eq (length.symm.trans (length_of_mapM run).symm))
    have alone : merged (shape.fieldNames.zip items) [] = shape.fieldNames.zip items := by
      refine merged_distinct ?_
      rw [List.nil_append, names]
      exact fieldNames_distinct shape
    show Except.ok (ofTexts (merged (shape.fieldNames.zip items) [])) =
      .ok (dict (fieldEntries shape items))
    rw [alone, fieldEntries_eq]
    rfl

theorem plain_of_copied {copies : List Value} (run : copiedItems fields = .ok copies) :
    plain (record shape fields) =
      (fun items => dict (fieldEntries shape items)) <$> copies.mapM plain := by
  rw [plain]
  split
  next other =>
    rw [run] at other
    cases other
  next copies' other =>
    rw [run] at other
    cases other
    rw [plainItems_eq_mapM]
    cases copies.mapM plain <;> rfl

theorem plain_of_lost {failure : Failure} (run : copiedItems fields = .error failure) :
    plain (record shape fields) = .error failure := by
  rw [plain]
  split
  next other =>
    rw [run] at other
    cases other
    rfl
  next other =>
    rw [run] at other
    cases other


theorem renewed_of_copied (fits : v.WellFormed) (run : copied v = .ok w) :
    ∃ u, renewed v = .ok u ∧ plain w = plain u := by
  induction fits generalizing w with
  | @intro v here each ih =>
    cases v with
    | list vs | tuple vs =>
      obtain ⟨copies, inner, rfl⟩ := ok_of_map run
      rw [copiedItems_eq_mapM] at inner
      have item : ∀ u ∈ vs, ∀ w, copied u = .ok w → ∃ u', renewed u = .ok u' ∧ plain w = plain u' :=
        fun u hu _ => ih u hu
      obtain ⟨others, runs, alike⟩ := exists_mapM_alike item inner
      refine ⟨_, by rw [renewed, renewedItems_eq_mapM, runs]; rfl, ?_⟩
      rw [plain, plain, plainItems_eq_mapM, alike, plainItems_eq_mapM]
    | dict entries =>
      obtain ⟨copies, inner, rfl⟩ := ok_of_map run
      have entry : ∀ e ∈ entries, ∀ copy, copiedEntry e = .ok copy →
          ∃ other, renewedEntry e = .ok other ∧ plainEntry copy = plainEntry other := by
        intro e he copy run
        have hashable : unhashable? e.1 = none := here e he
        obtain ⟨k', key, run⟩ := ok_of_bind run
        obtain ⟨v', value, run⟩ := ok_of_bind run
        obtain ⟨_, allowed, run⟩ := ok_of_bind run
        cases run
        have free : ¬HoldsRecord e.1 := fun holds => by
          obtain ⟨_, failed, _⟩ := (requireKey_failsIff hashable key).fails holds
          cases failed.symm.trans allowed
        obtain ⟨u, run, alike⟩ := ih e.2 (parts_subset_pieces _ (value_mem_parts he)) value
        have key' := ((unhashable_of_copied hashable).2 free).symm.trans key
        exact ⟨(k', u), by rw [renewedEntry, key', run]; rfl, by rw [plainEntry, plainEntry, alike]⟩
      rw [copiedEntries_eq_mapM] at inner
      obtain ⟨others, runs, alike⟩ := exists_mapM_alike entry inner
      refine ⟨_, by rw [renewed, renewedEntries_eq_mapM, runs]; rfl, ?_⟩
      rw [plain, plain, plainEntries_eq_mapM, alike, plainEntries_eq_mapM]
    | record shape fields =>
      obtain ⟨copies, inner, rfl⟩ := ok_of_map run
      have length : copies.length = fields.length :=
        length_of_mapM ((copiedItems_eq_mapM fields).symm.trans inner)
      refine ⟨record shape fields, rfl, ?_⟩
      rw [plain_of_copied inner]
      exact plain_fieldEntries shape copies (length.trans here)
    | _ => exact ⟨w, run, rfl⟩

/-- A copy that changes nothing. -/
theorem rebuilt_of_settled (h : v.Throughout Settled) : rebuilt v = .ok v := by
  induction h with
  | @intro v here each ih =>
    cases v with
    | foreign object =>
      have found : Copier.foreign object = some object := here
      rw [rebuilt, found]
      rfl
    | model content =>
      rw [rebuilt, ih content List.mem_cons_self]
      rfl
    | list items | tuple items | record shape items =>
      have same : items.mapM rebuilt = .ok items := mapM_eq_self ih
      rw [rebuilt, rebuiltItems_eq_mapM, same]
      rfl
    | set items | frozenSet items =>
      have order : Copier.order items = items := here
      have same : items.mapM rebuilt = .ok items := mapM_eq_self ih
      rw [rebuilt, rebuiltItems_eq_mapM, same]
      show Except.ok _ = _
      dsimp only
      rw [order]
    | dict entries =>
      have entry : ∀ e ∈ entries, rebuiltEntry e = .ok e := fun e he => by
        rw [rebuiltEntry, ih e.1 (key_mem_pieces he),
          ih e.2 (parts_subset_pieces _ (value_mem_parts he))]
        rfl
      rw [rebuilt, rebuiltEntries_eq_mapM, mapM_eq_self entry]
      rfl
    | _ => rfl

theorem renewed_of_settled (h : v.Throughout Settled) : renewed v = .ok v := by
  induction h with
  | @intro v here each ih =>
    cases v with
    | list items | tuple items =>
      have same : items.mapM renewed = .ok items := mapM_eq_self ih
      rw [renewed, renewedItems_eq_mapM, same]
      rfl
    | dict entries =>
      have entry : ∀ e ∈ entries, renewedEntry e = .ok e := fun e he => by
        rw [renewedEntry, rebuilt_of_settled (each e.1 (key_mem_pieces he)),
          ih e.2 (parts_subset_pieces _ (value_mem_parts he))]
        rfl
      rw [renewed, renewedEntries_eq_mapM, mapM_eq_self entry]
      rfl
    | record shape fields => rfl
    | _ => exact rebuilt_of_settled (.intro here each)

theorem plain_record_lost (fits : (record shape fields).WellFormed)
    (lost : (record shape fields).LosesKey ∨ (record shape fields).HoldsStuck) :
    ∃ failure, plain (record shape fields) = .error failure ∧ CopyFault failure := by
  obtain ⟨failure, failed, fault⟩ := (copied_failsIff fits).fails lost
  cases run : copiedItems fields with
  | ok copies =>
    rw [copied, run] at failed
    cases failed
  | error failure' =>
    rw [copied, run] at failed
    cases failed
    exact ⟨_, plain_of_lost run, fault⟩

theorem plain_record_kept (fits : (record shape fields).WellFormed)
    (keeps : ¬(record shape fields).LosesKey) (free : ¬(record shape fields).HoldsStuck) :
    ∃ copies, fields.mapM renewed = .ok copies ∧ plain (record shape fields) =
      (fun items => dict (fieldEntries shape items)) <$> copies.mapM plain := by
  obtain ⟨w, run⟩ := (copied_failsIff fits).succeeds (not_or.mpr ⟨keeps, free⟩)
  obtain ⟨copies, inner, _⟩ := ok_of_map run
  have run := (copiedItems_eq_mapM fields).symm.trans inner
  obtain ⟨others, runs, alike⟩ := exists_mapM_alike (g := renewed) (h := plain)
    (fun u hu _ => renewed_of_copied (fits.piece (u := u) hu)) run
  exact ⟨others, runs, by rw [plain_of_copied inner, alike]⟩

end Copies

/-- Sets that give their members in reverse once they have been copied. -/
abbrev reversing : Copier :=
  { Copier.faithful with order := List.reverse, order_perm := List.reverse_perm }

end Handover.Value

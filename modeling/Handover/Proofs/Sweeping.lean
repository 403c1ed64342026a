import Handover.Proofs.Backends
import Handover.Proofs.Kindred

namespace Handover

open Act (Parallel)

namespace Registry

variable {κ ν α : Type} {r r' s s' : Registry κ ν} {evictable : ν → Bool} {now : Rat}

/-- What sweeps have left of an entry: nothing, if it has expired, or an entry with the same value
and, if that may expire, the same time. -/
def Left (r : Registry κ ν) (evictable : ν → Bool) (now : Rat)
    (entry left : Option (RegistryEntry κ ν)) : Prop :=
  (left = none ∧ ∀ e, entry = some e → r.isExpired evictable now e = true) ∨
    ∃ e e', entry = some e ∧ left = some e' ∧ e'.value = e.value ∧
      (evictable e.value = true → e'.lastAccess = e.lastAccess)

/-- An entry that is left has expired if the one that it is left of has. -/
theorem isExpired_left (terms : r'.timeToLive = r.timeToLive) {e e' : RegistryEntry κ ν}
    (value : e'.value = e.value)
    (time : evictable e.value = true → e'.lastAccess = e.lastAccess) :
    r'.isExpired evictable now e' = r.isExpired evictable now e := by
  rw [isExpired, isExpired, terms, value]
  cases stays : evictable e.value with
  | false => rfl
  | true => rw [time stays]

theorem Left.of_terms (terms : s.timeToLive = r.timeToLive)
    {entry left : Option (RegistryEntry κ ν)} (h : r.Left evictable now entry left) :
    s.Left evictable now entry left := by
  rcases h with ⟨gone, expired⟩ | kept
  · refine .inl ⟨gone, fun e he => ?_⟩
    rw [isExpired, terms]
    exact expired e he
  · exact .inr kept

theorem Left.none : r.Left evictable now none none :=
  .inl ⟨rfl, nofun⟩

theorem Left.same (e : RegistryEntry κ ν) : r.Left evictable now (some e) (some e) :=
  .inr ⟨e, e, rfl, rfl, rfl, fun _ => rfl⟩

/-- An entry that has expired once is expired for good. -/
theorem Left.advance {entry left : Option (RegistryEntry κ ν)} {seconds : Rat}
    (h : r.Left evictable now entry left) (forward : 0 ≤ seconds) :
    r.Left evictable (now + seconds) entry left := by
  rcases h with ⟨gone, expired⟩ | kept
  · refine .inl ⟨gone, fun e he => ?_⟩
    have before := expired e he
    rw [isExpired, Bool.and_eq_true, decide_eq_true_eq] at before ⊢
    obtain ⟨stays, spent⟩ := before
    exact ⟨stays, by grind⟩
  · exact .inr kept

theorem examined_evictable {e : RegistryEntry κ ν} (h : evictable e.value = true) :
    examined evictable now e = e :=
  if_pos h

theorem Left.examined {entry left : Option (RegistryEntry κ ν)}
    (h : r.Left evictable now entry left) :
    r.Left evictable now (entry.map (examined evictable now))
      (left.map (examined evictable now)) := by
  rcases h with ⟨rfl, expired⟩ | ⟨e, e', rfl, rfl, value, time⟩
  · refine .inl ⟨rfl, fun e he => ?_⟩
    obtain ⟨e₀, rfl, rfl⟩ := Option.map_eq_some_iff.mp he
    rw [examined_evictable (isExpired_evictable (expired e₀ rfl))]
    exact expired e₀ rfl
  · obtain ⟨_, own⟩ := examined_entry evictable now e
    obtain ⟨_, other⟩ := examined_entry evictable now e'
    refine .inr ⟨_, _, rfl, rfl, other.trans (value.trans own.symm), fun stays => ?_⟩
    rw [own] at stays
    rw [examined_evictable stays, examined_evictable (value ▸ stays)]
    exact time stays

/-- What is left of an entry once it has been swept. -/
theorem Left.swept (terms : r'.timeToLive = r.timeToLive)
    {entry left : Option (RegistryEntry κ ν)} (h : r.Left evictable now entry left) :
    r.Left evictable now entry
      ((left.filter fun e => !r'.isExpired evictable now e).map
        (Registry.examined evictable now)) := by
  rcases h with ⟨rfl, expired⟩ | ⟨e, e', rfl, rfl, value, time⟩
  · exact .inl ⟨rfl, expired⟩
  · have same : r'.isExpired evictable now e' = r.isExpired evictable now e :=
      isExpired_left terms value time
    rw [Option.filter_some, same]
    cases spent : r.isExpired evictable now e with
    | true =>
      refine .inl ⟨rfl, ?_⟩
      rintro _ ⟨⟩
      exact spent
    | false =>
      obtain ⟨_, other⟩ := examined_entry evictable now e'
      refine .inr ⟨e, _, rfl, rfl, other.trans value, fun stays => ?_⟩
      rw [examined_evictable (value ▸ stays)]
      exact time stays

/-- What is left under a key that is read, where an entry that has expired is removed. -/
theorem Left.read (terms : r'.timeToLive = r.timeToLive)
    {entry left : Option (RegistryEntry κ ν)} (h : r.Left evictable now entry left) :
    r.Left evictable now
      ((entry.filter fun e => !r.isExpired evictable now e).map (accessed now))
      ((left.filter fun e => !r'.isExpired evictable now e).map (accessed now)) := by
  rcases h with ⟨rfl, expired⟩ | ⟨e, e', rfl, rfl, value, time⟩
  · cases entry with
    | none => exact .none
    | some e =>
      rw [Option.filter_some, expired e rfl]
      exact .none
  · have same : r'.isExpired evictable now e' = r.isExpired evictable now e :=
      isExpired_left terms value time
    rw [Option.filter_some, Option.filter_some, same]
    cases r.isExpired evictable now e with
    | true => exact .none
    | false => exact .inr ⟨accessed now e, accessed now e', rfl, rfl, value, fun _ => rfl⟩

theorem Left.filter {entry left : Option (RegistryEntry κ ν)} (p : ν → Bool)
    (h : r.Left evictable now entry left) :
    r.Left evictable now (entry.filter fun e => p e.value) (left.filter fun e => p e.value) := by
  rcases h with ⟨rfl, expired⟩ | ⟨e, e', rfl, rfl, value, time⟩
  · refine .inl ⟨rfl, fun e he => expired e ?_⟩
    exact (Option.filter_eq_some_iff.mp he).1
  · rw [Option.filter_some, Option.filter_some, value]
    cases p e.value with
    | true => exact .inr ⟨e, e', rfl, rfl, value, time⟩
    | false => exact .none

/-- It makes no difference that other values may expire. -/
theorem Left.of_evictable {evictable' : ν → Bool} {entry left : Option (RegistryEntry κ ν)}
    (h : r.Left evictable now entry left)
    (same : ∀ e, entry = some e → evictable' e.value = evictable e.value) :
    r.Left evictable' now entry left := by
  rcases h with ⟨gone, expired⟩ | ⟨e, e', rfl, held, value, time⟩
  · refine .inl ⟨gone, fun e he => ?_⟩
    rw [isExpired, same e he]
    exact expired e he
  · refine .inr ⟨e, e', rfl, held, value, fun stays => time ?_⟩
    rw [← same e rfl]
    exact stays

/-- What is left of an entry whose value may expire from a moment on, and whose time starts anew at
that moment. -/
theorem Left.finish [DecidableEq ν] {evictable' : ν → Bool} {value : ν}
    (unfinished : evictable value = false)
    (others : ∀ other, other ≠ value → evictable' other = evictable other)
    {entry left : Option (RegistryEntry κ ν)} (h : r.Left evictable now entry left) :
    r.Left evictable' now (entry.map fun e => if e.value = value then accessed now e else e)
      (left.map fun e => if e.value = value then accessed now e else e) := by
  by_cases own : ∃ e, entry = some e ∧ e.value = value
  · obtain ⟨e, rfl, held⟩ := own
    rcases h with ⟨_, expired⟩ | ⟨_, e', ⟨⟩, rfl, same, _⟩
    · have evicted := isExpired_evictable (expired e rfl)
      rw [held, unfinished] at evicted
      cases evicted
    · rw [Option.map_some, Option.map_some, if_pos held, if_pos (same.trans held)]
      exact .inr ⟨accessed now e, accessed now e', rfl, rfl, same, fun _ => rfl⟩
  · have apart : ∀ e, entry = some e → e.value ≠ value := fun e he hv => own ⟨e, he, hv⟩
    have kept : entry.map (fun e => if e.value = value then accessed now e else e) = entry := by
      cases entry with
      | none => rfl
      | some e => rw [Option.map_some, if_neg (apart e rfl)]
    have kept' : left.map (fun e => if e.value = value then accessed now e else e) = left := by
      rcases h with ⟨rfl, _⟩ | ⟨e, e', rfl, rfl, same, _⟩
      · rfl
      · rw [Option.map_some, if_neg (same ▸ apart e rfl)]
    rw [kept, kept']
    exact h.of_evictable fun e he => others e.value (apart e he)

variable [DecidableEq κ]

/-- Whether a registry is another one from which sweeps have removed some expired entries. -/
structure Thinned (evictable : ν → Bool) (now : Rat) (r r' : Registry κ ν) : Prop where
  own : r.Sound
  other : r'.Sound
  terms : r'.timeToLive = r.timeToLive
  left : ∀ key, r.Left evictable now (r.held? key) (r'.held? key)

theorem Thinned.refl (h : r.Sound) : Thinned evictable now r r := by
  refine ⟨h, h, rfl, fun key => ?_⟩
  cases r.held? key with
  | none => exact .none
  | some e => exact .same e

theorem Thinned.advance {seconds : Rat} (h : Thinned evictable now r r') (forward : 0 ≤ seconds) :
    Thinned evictable (now + seconds) r r' :=
  ⟨h.own, h.other, h.terms, fun key => (h.left key).advance forward⟩

/-- What can be read under a key is what can be read there after sweeps. -/
theorem Thinned.peek (h : Thinned evictable now r r') (key : κ) :
    (r'.peek evictable now key).1 = (r.peek evictable now key).1 := by
  rw [peek_live, peek_live]
  rcases h.left key with ⟨gone, expired⟩ | ⟨e, e', held, held', value, time⟩
  · rw [gone]
    cases held : r.held? key with
    | none => rfl
    | some e =>
      rw [Option.bind_some, expired e held]
      rfl
  · have same : r'.isExpired evictable now e' = r.isExpired evictable now e :=
      isExpired_left h.terms value time
    rw [held, held', Option.bind_some, Option.bind_some, same, value]

theorem Thinned.get (h : Thinned evictable now r r') (key : κ) (absent : Failure) :
    (r'.get evictable now key absent).answer = (r.get evictable now key absent).answer := by
  have found := h.peek key
  cases live : (r.peek evictable now key).1 with
  | none =>
    rw [live] at found
    rw [get_none h.own live, get_none h.other found]
  | some value =>
    rw [live] at found
    rw [get_some live, get_some found]

/-- A value that is left has not been changed. -/
theorem Thinned.value? (h : Thinned evictable now r r') {key : κ} {value : ν}
    (left : r'.value? key = some value) : r.value? key = some value := by
  obtain ⟨e', held', rfl⟩ := Option.map_eq_some_iff.mp left
  rcases h.left key with ⟨gone, _⟩ | ⟨e, _, held, held'', same, _⟩
  · cases held'.symm.trans gone
  · cases held'.symm.trans held''
    rw [value?_of_held held, same]

theorem Left.at {key other : κ} {entry left : Option (RegistryEntry κ ν)}
    (own : r.Left evictable now entry left)
    (others : r.Left evictable now (r.held? other) (r'.held? other)) :
    r.Left evictable now (if other = key then entry else r.held? other)
      (if other = key then left else r'.held? other) := by
  by_cases same : other = key
  · rw [if_pos same, if_pos same]
    exact own
  · rw [if_neg same, if_neg same]
    exact others

variable [DecidableEq ν]

/-- A sweep removes expired entries alone. -/
theorem Thinned.purge (h : Thinned evictable now r r') :
    Thinned evictable now r (r'.purge evictable now).registry := by
  have drops : (r'.purge evictable now).Drops r' evictable := purge_drops h.other
  have keyed : r'.Keyed := h.other.keyed
  refine ⟨h.own, drops.sound, ?_, fun key => ?_⟩
  · unfold Registry.purge
    dsimp only
    rw [(tell_terms _ _ _).1]
    exact h.terms
  · rw [keyed.held?_purge]
    exact (h.left key).swept h.terms

theorem Sound.follow (h : r.Sound) (absent : κ → Failure) (m : Moment ν)
    {call : RegistryCall κ ν} (opened : call ≠ .close) :
    (r.follow absent m call).registry.Sound := by
  refine ⟨Keyed.follow h.keyed absent m call, fun stopped => ?_⟩
  rcases (follow_cleaner absent r m call).2 stopped with before | closing
  · exact h.awake before
  · exact opened closing

/-- Two registries after the same call, by what it leaves of their entries. -/
theorem Thinned.follow (h : Thinned evictable now r r') (absent : κ → Failure)
    {call : RegistryCall κ ν} (opened : call ≠ .close) {evictable' : ν → Bool}
    (left : ∀ key, r.Left evictable' now
      ((r.follow absent ⟨now, evictable⟩ call).registry.held? key)
      ((r'.follow absent ⟨now, evictable⟩ call).registry.held? key)) :
    Thinned evictable' now (r.follow absent ⟨now, evictable⟩ call).registry
      (r'.follow absent ⟨now, evictable⟩ call).registry := by
  obtain ⟨terms, _⟩ := follow_terms absent r ⟨now, evictable⟩ call
  obtain ⟨terms', _⟩ := follow_terms absent r' ⟨now, evictable⟩ call
  exact ⟨h.own.follow _ _ opened, h.other.follow _ _ opened,
    terms'.trans (h.terms.trans terms.symm), fun key => (left key).of_terms terms⟩

theorem Thinned.looked (h : Thinned evictable now r r') (key : κ) (absent : Failure) :
    Thinned evictable now (r.get evictable now key absent).registry
      (r'.get evictable now key absent).registry := by
  have opened : (.get key : RegistryCall κ ν) ≠ .close := nofun
  refine h.follow (fun _ => absent) opened fun other => ?_
  change r.Left evictable now ((r.get evictable now key absent).registry.held? other)
    ((r'.get evictable now key absent).registry.held? other)
  rw [held?_get, held?_get]
  exact .at ((h.left key).read h.terms) (h.left other)

theorem Thinned.peeked (h : Thinned evictable now r r') (key : κ) :
    Thinned evictable now (r.peek evictable now key).2 (r'.peek evictable now key).2 := by
  have opened : (.peek key : RegistryCall κ ν) ≠ .close := nofun
  refine h.follow (fun _ => .cleanerStopped) opened fun other => ?_
  change r.Left evictable now ((r.peek evictable now key).2.held? other)
    ((r'.peek evictable now key).2.held? other)
  rw [held?_peek, held?_peek]
  exact .at (h.left key).examined (h.left other)

theorem Thinned.put (h : Thinned evictable now r r') (key : κ) (value : ν) :
    Thinned evictable now (r.put now key value).2 (r'.put now key value).2 := by
  have opened : (.put key value : RegistryCall κ ν) ≠ .close := nofun
  refine h.follow (fun _ => .cleanerStopped) opened fun other => ?_
  change r.Left evictable now ((r.put now key value).2.held? other)
    ((r'.put now key value).2.held? other)
  rw [held?_put, held?_put]
  exact .at (.same ⟨key, value, now⟩) (h.left other)

theorem Thinned.removed (h : Thinned evictable now r r') (key : κ) :
    Thinned evictable now (r.remove key).registry (r'.remove key).registry := by
  have opened : (.remove key : RegistryCall κ ν) ≠ .close := nofun
  refine h.follow (fun _ => .cleanerStopped) opened fun other => ?_
  change r.Left evictable now ((r.remove key).registry.held? other)
    ((r'.remove key).registry.held? other)
  rw [held?_remove, held?_remove]
  exact .at .none (h.left other)

theorem Thinned.discarded (h : Thinned evictable now r r') (key : κ) (value : ν) :
    Thinned evictable now (r.discard key value).2 (r'.discard key value).2 := by
  have opened : (.discard key value : RegistryCall κ ν) ≠ .close := nofun
  refine h.follow (fun _ => .cleanerStopped) opened fun other => ?_
  change r.Left evictable now ((r.discard key value).2.held? other)
    ((r'.discard key value).2.held? other)
  rw [held?_discard, held?_discard]
  exact .at ((h.left key).filter fun v => v ≠ value) (h.left other)

theorem Thinned.finished (h : Thinned evictable now r r') {evictable' : ν → Bool} {key : κ}
    {value : ν} (unfinished : evictable value = false)
    (others : ∀ other, other ≠ value → evictable' other = evictable other)
    (owned : ∀ other, r.value? other = some value → other = key) :
    Thinned evictable' now (r.touch now key value).2 (r'.touch now key value).2 := by
  have opened : (.touch key value : RegistryCall κ ν) ≠ .close := nofun
  refine h.follow (fun _ => .cleanerStopped) opened fun other => ?_
  change r.Left evictable' now ((r.touch now key value).2.held? other)
    ((r'.touch now key value).2.held? other)
  rw [held?_touch, held?_touch]
  by_cases same : other = key
  · rw [if_pos same, if_pos same]
    exact (h.left key).finish unfinished others
  · rw [if_neg same, if_neg same]
    refine (h.left other).of_evictable fun e held => others e.value fun hv => same ?_
    exact owned other ((value?_of_held held).trans (congrArg some hv))

/-- Requests do the same to a registry and to what sweeps have left of it. -/
theorem thinned_law : Law Thinned fun _ _ => True where
  get key absent h := ⟨h.get key absent, trivial, h.looked key absent⟩
  remove key h := by
    obtain ⟨removed, own⟩ := remove_answer h.own key
    obtain ⟨removed', other⟩ := remove_answer h.other key
    refine ⟨?_, trivial, h.removed key⟩
    rw [Removal.void, Removal.void, own, other]
    rfl
  peek key h := ⟨h.peek key, h.peeked key⟩
  put key value _ h := h.put key value
  discard key value h := h.discarded key value
  advance forward h := h.advance forward
  finish unfinished others owned h := h.finished unfinished others owned

end Registry

variable {δ : Type}

open Storage (BothSound)

/-- What is asked for on an occasion, if it is neither a sweep of the registry nor something that
nobody asks for. -/
def Occasion.call? : Occasion → Option Operation
  | .operation .purge => none
  | .operation op => some op
  | .tend _ => none
  | .shutdown => none

theorem Occasion.call?_some {occasion : Occasion} {op : Operation}
    (h : occasion.call? = some op) : occasion = .operation op ∧ op ≠ .purge := by
  unfold call? at h
  split at h
  next => cases h
  next unswept =>
    cases h
    exact ⟨rfl, fun sweep => unswept sweep⟩
  next => cases h
  next => cases h

/-- Two services that have run the same jobs, of which one may have been swept more often. -/
structure World.Unnoticed (chronicle : Chronicle) (w v : World δ) : Prop where
  kin : w.Kindred Eq BothSound Registry.Thinned v
  own : w.Consistent chronicle
  other : v.Consistent chronicle

namespace Service

variable {env : Environment δ} {c : Surroundings δ} {w v : World δ} {chronicle : Chronicle}
variable {tenant : Uuid}

theorem heed_thinned (e : env.Within c) (notices notices' : List (Notice Uuid Nat)) :
    Parallel (World.Kindred Eq BothSound Registry.Thinned) (heed env notices)
      (heed env notices') := by
  rintro w _ ⟨_, storage, registry, due, rfl, rfl, ⟨own, other⟩, thinned⟩
  obtain ⟨s, waiting, run, sound, _⟩ := outcome_heed e notices own
  obtain ⟨s', waiting', run', sound', _⟩ := outcome_heed
    (w := { w with storage, registry, due }) e notices' other
  rw [run, run']
  exact ⟨rfl, w.data, s', registry, waiting', rfl, rfl, ⟨sound, sound'⟩, thinned⟩

/-- Whether what is replaced has been swept before or not, cleaning up after it does not fail. -/
theorem cleanReplaced_thinned (e : env.Within c) (w v : World δ) (id : Uuid)
    (replaced replaced' : Option Nat) :
    Parallel (World.Kindred Eq BothSound Registry.Thinned) (cleanReplaced env w id replaced)
      (cleanReplaced env v id replaced') := by
  rintro u _ ⟨_, storage, registry, due, rfl, rfl, ⟨own, other⟩, thinned⟩
  obtain ⟨s, run, spares, _⟩ := cleanReplaced_spares e own w id replaced
  obtain ⟨s', run', spares', _⟩ := cleanReplaced_spares
    (u := { u with storage, registry, due }) e other v id replaced'
  rw [run, run']
  exact ⟨rfl, u.data, s', registry, due, rfl, rfl, ⟨spares.sound, spares'.sound⟩, thinned⟩

theorem getResult_thinned (e : env.Within c) (tenant : Uuid) :
    Parallel (World.Kindred Eq BothSound Registry.Thinned) (getResult env tenant)
      (getResult env tenant) :=
  getResult_kindred Registry.thinned_law (fun notices notices' _ => heed_thinned e notices notices')
    tenant

/-- The archive of a result that succeeded is kept by two services that have run the same jobs. -/
theorem keeps_both {chronicle : Chronicle} (own : w.Consistent chronicle)
    (other : v.Consistent chronicle) {tenant : Uuid} {r : JobResult}
    (registered : w.registry.value? tenant = some ticket)
    (registered' : v.registry.value? tenant = some ticket) (result : w.result? ticket = some r)
    (result' : v.result? ticket = some r) (succeeded : r.status = .succeeded) :
    ∃ members, w.storage.Keeps tenant members ∧ v.storage.Keeps tenant members := by
  obtain ⟨rows, ran, kept, _⟩ := own.stored tenant ticket r registered result succeeded
  obtain ⟨rows', ran', kept', _⟩ := other.stored tenant ticket r registered' result' succeeded
  cases chronicle_unique own ran ran'
  exact ⟨_, kept, kept'⟩

theorem fetch_thinned (e : env.Within c) (h : w.Kindred Eq BothSound Registry.Thinned v)
    {members : Archive} (own : w.storage.Keeps tenant members)
    (other : v.storage.Keeps tenant members) :
    ((useStorage env .fetch (Storage.fetch tenant)).outcome v).1 =
        ((useStorage env .fetch (Storage.fetch tenant)).outcome w).1 ∧
      World.Kindred Eq BothSound Registry.Thinned
        ((useStorage env .fetch (Storage.fetch tenant)).outcome w).2
        ((useStorage env .fetch (Storage.fetch tenant)).outcome v).2 := by
  obtain ⟨answered, sound⟩ := Storage.outcome_fetch_both h.storage own other
  obtain ⟨_, storage, registry, due, rfl, rfl, _, thinned⟩ := h
  rw [outcome_fetch e, outcome_fetch e]
  exact ⟨answered, w.data, _, registry, due, rfl, rfl, sound, thinned⟩

theorem download_thinned (e : env.Within c) (h : World.Unnoticed chronicle w v) (tenant : Uuid) :
    ((download env tenant).outcome v).1 = ((download env tenant).outcome w).1 ∧
      World.Kindred Eq BothSound Registry.Thinned ((download env tenant).outcome w).2
        ((download env tenant).outcome v).2 := by
  refine download_related (fun answer other => other = answer) (fun _ => rfl)
    (getResult_thinned e tenant) h.kin ?_
  intro r w' v' run run' succeeded kin
  obtain ⟨_, same⟩ := getResult_ok e h.own.registry h.own.storage run
  obtain ⟨⟨ticket, live, result⟩, same'⟩ := getResult_ok e h.other.registry h.other.storage run'
  have registered := Registry.peek_some live
  obtain ⟨members, kept, kept'⟩ := keeps_both h.own h.other (h.kin.registry.value? registered)
    registered ((World.result?_congr h.kin.results ticket).symm.trans result) result succeeded
  rw [← same] at kept
  rw [← same'] at kept'
  exact fetch_thinned e kin kept kept'

/-- Whatever is asked for but a sweep is answered as if there had been fewer sweeps. -/
theorem answer_thinned (e : env.Within c) (h : World.Unnoticed chronicle w v) {op : Operation}
    (unswept : op ≠ .purge) (forward : ∀ seconds, op = .advance seconds → 0 ≤ seconds) :
    answer env v (.operation op) = answer env w (.operation op) ∧
      (after env w op).Kindred Eq BothSound Registry.Thinned (after env v op) := by
  have asks : ∀ id, Parallel (World.Kindred Eq BothSound Registry.Thinned) (env.ask (.tenant id))
      (env.ask (.tenant id)) := by
    intro id
    rw [e.ask]
    exact World.onData_kindred (c.respects_eq.ask (.tenant id))
  exact answer_kindred e.apart Registry.thinned_law
    (fun notices notices' _ => heed_thinned e notices notices')
    (fun w v id _ => cleanReplaced_thinned e w v id _ _) asks
    (fun _ _ _ => exportTenant_alike e)
    (fun ticket tenant skipped hm => (h.own.queued ticket tenant skipped hm).1) h.own.owned
    (download_thinned e h) h.kin unswept forward

theorem savedBy_thinned (e : env.Within c) {ticket : Nat} {tenant : Tenant}
    {skipped : List RecordType} (h : w.Kindred Eq BothSound Registry.Thinned v) :
    savedBy env ticket tenant skipped v = savedBy env ticket tenant skipped w := by
  obtain ⟨_, storage, registry, due, rfl, rfl, both, _⟩ := h
  have alike : World.Alike Eq BothSound { w with registry, due }
      { w with storage, registry, due } := ⟨w.data, storage, rfl, rfl, both⟩
  exact (savedBy_alike e alike).trans (savedBy_aloof e.apart registry due w)

theorem chronicled_thinned (e : env.Within c) (h : w.Kindred Eq BothSound Registry.Thinned v)
    (op : Operation) : chronicled env v op = chronicled env w op := by
  cases op with
  | run =>
    rw [chronicled, chronicled, h.worker]
    rcases w.worker.start? with _ | ⟨place, task, worker⟩
    · rfl
    · cases task with
      | filler => rfl
      | job ticket tenant skipped =>
        show [(ticket, _)] = [(ticket, _)]
        rw [savedBy_thinned e (h.withWorker worker)]
  | _ => rfl

theorem step_unnoticed (e : env.Within c) (finds : c.FindsTenants)
    (h : World.Unnoticed chronicle w v) {op : Operation} (unswept : op ≠ .purge)
    (forward : ∀ seconds, op = .advance seconds → 0 ≤ seconds) :
    World.Unnoticed (chronicle ++ chronicled env w op) (after env w op) (after env v op) := by
  have stepped := step_consistent e finds h.other op
  rw [step, chronicled_thinned e h.kin op] at stepped
  exact ⟨(answer_thinned e h unswept forward).2, step_consistent e finds h.own op, stepped⟩

/-- A further sweep goes unnoticed. -/
theorem purge_unnoticed (e : env.Within c) (h : World.Unnoticed chronicle w v) :
    World.Unnoticed chronicle w (after env v .purge) := by
  refine ⟨?_, h.own, h.other.trims (purge_trims e h.other)⟩
  obtain ⟨_, storage, registry, due, rfl, rfl, ⟨own, other⟩, thinned⟩ := h.kin
  let u : World δ := { w with storage, registry, due }
  obtain ⟨s, waiting, run, trims⟩ := outcome_withRegistry (w := u) e other
    (fun w => w.registry.purge w.isEvictable w.time) (Registry.purge_drops thinned.other)
  have purged : (purge env).outcome u = _ := run
  rw [after, purged]
  exact ⟨w.data, s, _, waiting, rfl, rfl, ⟨own, trims.storage⟩, thinned.purge⟩

/-- A harmless late clean-up goes unnoticed. -/
theorem tend_unnoticed (e : env.Within c) (h : World.Unnoticed chronicle w v) {count : Nat}
    (harmless : v.Harmless (.tend count)) :
    World.Unnoticed chronicle w (onward env v (.tend count)) := by
  refine ⟨?_, h.own, tend_consistent e h.other harmless⟩
  obtain ⟨_, storage, registry, due, rfl, rfl, ⟨own, other⟩, thinned⟩ := h.kin
  let u : World δ := { w with storage, registry, due }
  obtain ⟨s, run, sound, _⟩ := outcome_cleanUpAll
    (w := { u with due := due.drop count }) e (due.take count) other
  have tended : (tend env count).outcome u = _ := run
  rw [onward, tended]
  exact ⟨w.data, s, registry, _, rfl, rfl, ⟨own, sound⟩, thinned⟩

/-- How the job ends that is run next: its result and, if that has succeeded, its archive. -/
def ending (env : Environment δ) (w : World δ) :
    Operation → Option (Option JobResult × Option (Except Failure Archive))
  | .run =>
    match w.worker.start? with
    | some (_, .job ticket tenant _, _) =>
      let w' := after env w .run
      let r := w'.result? ticket
      some (r, if r.any JobResult.isSuccess then
        some ((Storage.fetch tenant.id).outcome w'.storage).1 else none)
    | _ => none
  | _ => none

/-- What those who use a service see on an occasion: the answer to what they ask for, and how the job
ends that is run. -/
def sight (env : Environment δ) (w : World δ) (occasion : Occasion) :
    Option (Answer × Option (Option JobResult × Option (Except Failure Archive))) :=
  occasion.call?.map fun op => (answer env w (.operation op), ending env w op)

/-- What those who use a service see of it: every answer but those to sweeps, and how every job
ends. -/
def sights (env : Environment δ) :
    List Occasion → World δ →
      List (Answer × Option (Option JobResult × Option (Except Failure Archive)))
  | [], _ => []
  | occasion :: rest, w => (sight env w occasion).toList ++ sights env rest (onward env w occasion)

/-- The archive of a job that has just succeeded is made from what it has saved. -/
theorem run_keeps (e : env.Within c) (h : w.Consistent chronicle) {ticket place : Nat}
    {tenant : Tenant} {skipped : List RecordType} {rest : List Task}
    (front : w.worker.waiting = .job ticket tenant skipped :: rest)
    (start : w.worker.start? = some (place, .job ticket tenant skipped,
      w.worker.setPhase place .running))
    (success : ((after env w .run).result? ticket).any JobResult.isSuccess = true) :
    (after env w .run).storage.Keeps tenant.id (Holding.archiveOf (Holding.written
      (savedBy env ticket tenant skipped
        { w with worker := w.worker.setPhase place .running }))) := by
  have waited := (h.queued ticket tenant skipped (front ▸ List.mem_cons_self)).1
  obtain ⟨result, w', run, ended, _, _, keeps⟩ := runNext_job e h.storage waited start
  obtain ⟨r, found, _, status, _⟩ := ended.ended
  have left : (after env w .run).result? ticket = some r := by
    rw [after, run]
    exact found
  rw [left, Option.any_some, JobResult.isSuccess, status] at success
  rw [after, run]
  rcases result with failure | _
  · cases success
  · exact keeps rfl

/-- A job ends alike, with the same archive, whether there have been more sweeps or not. -/
theorem ending_unnoticed (e : env.Within c) (h : World.Unnoticed chronicle w v) (op : Operation) :
    ending env v op = ending env w op := by
  cases op with
  | run =>
    have unswept : Operation.run ≠ .purge := nofun
    have ran := (answer_thinned e h unswept nofun).2
    rw [ending, ending, h.kin.worker]
    cases front : w.worker.waiting with
    | nil => rw [Worker.start?_nil front]
    | cons task rest =>
      obtain ⟨place, start, _⟩ := Worker.start?_front front
      rw [start]
      cases task with
      | filler => rfl
      | job ticket tenant skipped =>
        have same := World.result?_congr ran.results ticket
        dsimp only
        rw [same]
        by_cases success : ((after env w .run).result? ticket).any JobResult.isSuccess = true
        · have worker := h.kin.worker
          have kept := run_keeps e h.own front start success
          have kept' := run_keeps e h.other (worker ▸ front) (worker ▸ start) (same ▸ success)
          rw [worker, savedBy_thinned e (h.kin.withWorker _)] at kept'
          rw [if_pos success, if_pos success,
            (Storage.outcome_fetch_both ran.storage kept kept').1]
        · rw [if_neg success, if_neg success]
  | _ => rfl

/-- What nobody asks for goes unnoticed. -/
theorem uncalled_unnoticed (e : env.Within c) (h : World.Unnoticed chronicle w v)
    {occasion : Occasion} (uncalled : occasion.call? = none) (running : occasion ≠ .shutdown)
    (harmless : v.Harmless occasion) :
    record env (v, chronicle) occasion = (onward env v occasion, chronicle) ∧
      World.Unnoticed chronicle w (onward env v occasion) := by
  cases occasion with
  | operation op =>
    cases op with
    | purge => exact ⟨Prod.ext rfl (List.append_nil chronicle), purge_unnoticed e h⟩
    | _ => cases uncalled
  | tend count =>
    exact ⟨Prod.ext rfl (List.append_nil chronicle), tend_unnoticed e h harmless⟩
  | shutdown => exact absurd rfl running

/-- What is seen of a service, and what it comes to, are the same without its sweeps and without
late clean-ups. -/
theorem sights_unnoticed (e : env.Within c) (finds : c.FindsTenants) (occasions : List Occasion)
    (running : .shutdown ∉ occasions)
    (forward : ∀ seconds, .operation (.advance seconds) ∈ occasions → 0 ≤ seconds)
    (h : World.Unnoticed chronicle w v) (harmless : Harmless env occasions v) :
    let calls := (occasions.filterMap Occasion.call?).map Occasion.operation
    let s := calls.foldl (record env) (w, chronicle)
    let s' := occasions.foldl (record env) (v, chronicle)
    sights env occasions v = sights env calls w ∧ s'.2 = s.2 ∧ World.Unnoticed s.2 s.1 s'.1 := by
  induction occasions generalizing w v chronicle with
  | nil => exact ⟨rfl, rfl, h⟩
  | cons occasion rest ih =>
    rw [List.mem_cons, not_or] at running
    obtain ⟨mild, harmless⟩ := harmless
    have later : ∀ seconds, .operation (.advance seconds) ∈ rest → 0 ≤ seconds :=
      fun seconds hm => forward seconds (List.mem_cons_of_mem occasion hm)
    cases called : occasion.call? with
    | none =>
      obtain ⟨same, still⟩ := uncalled_unnoticed e h called (Ne.symm running.1) mild
      obtain ⟨seen, ran, last⟩ := ih running.2 later still harmless
      have unseen : sight env v occasion = none := by rw [sight, called, Option.map_none]
      dsimp only
      rw [List.filterMap_cons_none called, sights, unseen, List.foldl_cons, same]
      exact ⟨seen, ran, last⟩
    | some op =>
      obtain ⟨rfl, unswept⟩ := Occasion.call?_some called
      have first : ∀ seconds, op = .advance seconds → 0 ≤ seconds :=
        fun seconds same => forward seconds (same ▸ List.mem_cons_self)
      obtain ⟨seen, ran, last⟩ := ih running.2 later (step_unnoticed e finds h unswept first)
        harmless
      have told := (answer_thinned e h unswept first).1
      have sighted : ∀ u : World δ, sight env u (.operation op) =
          some (answer env u (.operation op), ending env u op) := by
        intro u
        rw [sight, called, Option.map_some]
      have stepped : record env (v, chronicle) (.operation op) =
          (after env v op, chronicle ++ chronicled env w op) := by
        rw [← chronicled_thinned e h.kin op]
        rfl
      dsimp only
      rw [List.filterMap_cons_some called, List.map_cons, sights, sights, sighted, sighted, told,
        ending_unnoticed e h op, List.foldl_cons, List.foldl_cons, stepped]
      exact ⟨congrArg _ seen, ran, last⟩

/-- Sweeps go unnoticed. In two courses of a service that differ in their sweeps alone and in the
moments at which its cleaner works, and in which time does not go back, everything else is answered
the same, every job ends with the same result, archive and records saved, and the results, what is
live, the queue, time, clock and data are the same at the end. Clean-ups that come late have to be
harmless by then. -/
theorem sweeps_unnoticed (c : Surroundings δ) (finds : c.FindsTenants) (plan : JobPlan)
    (allows : Bool) (bound : Nat) (w₀ : World δ) (opening : w₀.Opening)
    (occasions others : List Occasion) (running : .shutdown ∉ occasions ++ others)
    (called : others.filterMap Occasion.call? = occasions.filterMap Occasion.call?)
    (forward : ∀ seconds, .operation (.advance seconds) ∈ occasions → 0 ≤ seconds)
    (harmless : Harmless (.around c plan allows bound) occasions w₀ ∧
      Harmless (.around c plan allows bound) others w₀) :
    let env := Environment.around c plan allows bound
    let s := annals env occasions w₀
    let s' := annals env others w₀
    sights env others w₀ = sights env occasions w₀ ∧ s'.1.results = s.1.results ∧ s'.2 = s.2 ∧
      (∀ tenant, live? s'.1 tenant = live? s.1 tenant) ∧ s'.1.worker = s.1.worker ∧
      s'.1.time = s.1.time ∧ s'.1.clock = s.1.clock ∧ s'.1.data = s.1.data := by
  intro env s s'
  have e : env.Within c := Environment.around_within c plan allows bound
  rw [List.mem_append, not_or] at running
  have begun : World.Unnoticed [] w₀ w₀ := by
    have consistent := opening.consistent
    exact ⟨⟨w₀.data, w₀.storage, w₀.registry, w₀.due, rfl, rfl,
      ⟨opening.storage, opening.storage⟩, .refl consistent.registry⟩, consistent, consistent⟩
  have forward' : ∀ seconds, .operation (.advance seconds) ∈ others → 0 ≤ seconds := by
    intro seconds later
    have kept : .advance seconds ∈ others.filterMap Occasion.call? :=
      List.mem_filterMap.mpr ⟨_, later, rfl⟩
    rw [called] at kept
    obtain ⟨occasion, hm, same⟩ := List.mem_filterMap.mp kept
    obtain ⟨rfl, _⟩ := Occasion.call?_some same
    exact forward seconds hm
  obtain ⟨seen, ran, own⟩ :=
    sights_unnoticed e finds occasions running.1 forward begun harmless.1
  obtain ⟨seen', ran', other⟩ :=
    sights_unnoticed e finds others running.2 forward' begun harmless.2
  rw [called] at seen' ran' other
  let u := (((occasions.filterMap Occasion.call?).map Occasion.operation).foldl (record env)
    (w₀, [])).1
  have unnoticed : u.Unnoticed _ s.1 := own
  have unnoticed' : u.Unnoticed _ s'.1 := other
  have live : ∀ {v : World δ}, u.Kindred Eq BothSound Registry.Thinned v →
      ∀ tenant, live? v tenant = live? u tenant := by
    rintro _ ⟨_, storage, registry, due, rfl, rfl, _, thinned⟩ tenant
    exact thinned.peek tenant
  refine ⟨seen'.trans seen.symm, ?_, ran'.trans ran.symm, fun tenant => ?_, ?_, ?_, ?_, ?_⟩
  · exact other.kin.results.trans own.kin.results.symm
  · exact (live other.kin tenant).trans (live own.kin tenant).symm
  · exact other.kin.worker.trans own.kin.worker.symm
  · exact other.kin.time.trans own.kin.time.symm
  · exact other.kin.clock.trans own.kin.clock.symm
  · exact other.kin.data.symm.trans own.kin.data

/-- An export that has expired is submitted again, whether it has been swept or not. What is swept
is cleaned up late, when the next job of its tenant waits. -/
theorem sweeps_unnoticed_expired :
    let w₀ : World Store := ⟨⟨[.tenant ⟨⟨7⟩, .str "acme"⟩]⟩, [], ⟨60, true, .idle, []⟩, 0,
      ⟨1, true, []⟩, .here (.new "data.tar"), ⟨0⟩, []⟩
    let c : Surroundings Store := { Surroundings.ofStore 0 with keepsUp := false }
    let env := Environment.around c ⟨.standard, 2, 1, .null, []⟩ false 9
    let submit := Occasion.operation (.submit ⟨7⟩ (RecordType.all.filter (· ≠ .tenant)))
    let run := Occasion.operation .run
    let later := Occasion.operation (.advance 61)
    let purge := Occasion.operation .purge
    let download := Occasion.operation (.download ⟨7⟩)
    let occasions := [submit, run, later, submit, run, download]
    let others := [submit, purge, run, later, purge, submit, .tend 1, run, purge, download]
    c.FindsTenants ∧ w₀.Opening ∧
      others.filterMap Occasion.call? = occasions.filterMap Occasion.call? ∧
      Harmless env occasions w₀ ∧ Harmless env others w₀ ∧
      sights env others w₀ = sights env occasions w₀ ∧
      (annals env occasions w₀).1.results.map (·.status) = [.succeeded, .succeeded] := by
  intro w₀ c env submit run later purge download occasions others
  have finds : c.FindsTenants := ofStore_findsTenants 0
  have opening : w₀.Opening :=
    ⟨rfl, rfl, by decide, rfl, rfl, Storage.here_sound (by decide)⟩
  have running : .shutdown ∉ occasions ++ others := by
    simp [occasions, others, submit, run, later, purge, download]
  have called : others.filterMap Occasion.call? = occasions.filterMap Occasion.call? := rfl
  have forward : ∀ seconds, .operation (.advance seconds) ∈ occasions → 0 ≤ seconds := by
    intro seconds hm
    simp only [occasions, submit, run, later, download, List.mem_cons, Occasion.operation.injEq,
      Operation.advance.injEq, reduceCtorEq, List.not_mem_nil, false_or, or_false] at hm
    rw [hm]
    decide
  have harmless : Harmless env occasions w₀ := by decide +kernel
  have harmless' : Harmless env others w₀ := by decide +kernel
  have ended : (annals env others w₀).1.results.map (·.status) = [.succeeded, .succeeded] := by
    decide +kernel
  obtain ⟨seen, results, _⟩ := sweeps_unnoticed c finds ⟨.standard, 2, 1, .null, []⟩ false 9 w₀
    opening occasions others running called forward ⟨harmless, harmless'⟩
  exact ⟨finds, opening, called, harmless, harmless', seen, results ▸ ended⟩

/-- Where what is swept is cleaned up after the next job of its tenant, the archive of that job is
gone: with the sweep a download fails that succeeds without it. -/
theorem late_sweep_noticed :
    let w₀ : World Store := ⟨⟨[.tenant ⟨⟨7⟩, .str "acme"⟩]⟩, [], ⟨60, true, .idle, []⟩, 0,
      ⟨1, true, []⟩, .here (.new "data.tar"), ⟨0⟩, []⟩
    let env := Environment.around { Surroundings.ofStore 0 with keepsUp := false }
      ⟨.standard, 2, 1, .null, []⟩ false 9
    let submit := Occasion.operation (.submit ⟨7⟩ (RecordType.all.filter (· ≠ .tenant)))
    let run := Occasion.operation .run
    let later := Occasion.operation (.advance 61)
    let w := (annals env [submit, run, later, submit, run] w₀).1
    let w' := (annals env [submit, run, later, .operation .purge, submit, run, .tend 1] w₀).1
    ((download env ⟨7⟩).outcome w).1.isOk = true ∧
      ((download env ⟨7⟩).outcome w').1.isOk = false := by
  decide +kernel

end Service

end Handover

import Mathlib.Algebra.Order.Ring.Unbundled.Rat
import Handover.Proofs.RegistryCourse

namespace Handover

/-- The value that stands under a key: the one that was put last, with the time of the put and the
times since then that count as accesses. -/
structure Standing (ν : Type) where
  value : ν
  since : Rat
  accesses : List Rat
  deriving DecidableEq, Repr

namespace Standing

variable {ν : Type}

/-- The latest access; the put itself is one. -/
def latest (s : Standing ν) : Rat :=
  s.accesses.foldl max s.since

/-- Whether a value is kept at a moment. -/
def lives (timeToLive : Rat) (m : Moment ν) (s : Standing ν) : Bool :=
  !m.evictable s.value || m.now - s.latest < timeToLive

def seen (now : Rat) (s : Standing ν) : Standing ν :=
  { s with accesses := s.accesses ++ [now] }

/-- A look at a value counts while the value may not expire. -/
def looked (m : Moment ν) (s : Standing ν) : Standing ν :=
  if m.evictable s.value then s else s.seen m.now

variable {κ : Type} [DecidableEq κ] [DecidableEq ν]

/-- What stands under a key after a call, by what stood there before. -/
def follow (timeToLive : Rat) (key : κ) (m : Moment ν) (standing : Option (Standing ν)) :
    RegistryCall κ ν → Option (Standing ν)
  | .put k value => if key = k then some ⟨value, m.now, []⟩ else standing
  | .get k => if key = k then (standing.filter (lives timeToLive m)).map (seen m.now) else standing
  | .peek k => if key = k then standing.map (looked m) else standing
  | .contains k => if key = k then standing.map (looked m) else standing
  | .touch k value =>
    if key = k then standing.map fun s => if s.value = value then s.seen m.now else s else standing
  | .discard k value => if key = k then standing.filter (·.value ≠ value) else standing
  | .remove k => if key = k then none else standing
  | .purge => (standing.filter (lives timeToLive m)).map (looked m)
  | .close => none

/-- What stands under a key after some events since nothing stood there. -/
def after (timeToLive : Rat) (key : κ) (events : List (RegistryEvent κ ν)) :
    Option (Standing ν) :=
  events.foldl (fun standing e => follow timeToLive key e.moment standing e.call) none

/-- The entry of a value that stands under a key. -/
def entry (key : κ) (s : Standing ν) : RegistryEntry κ ν :=
  ⟨key, s.value, s.latest⟩

variable {key : κ} {timeToLive : Rat} {s : Standing ν} {m : Moment ν}
  {standing : Option (Standing ν)}

/-- Whether no access lies in the future of a time. -/
def Late (now : Rat) (standing : Option (Standing ν)) : Prop :=
  ∀ s ∈ standing, s.latest ≤ now

omit [DecidableEq ν] in
theorem latest_seen {now : Rat} (h : s.latest ≤ now) : (s.seen now).latest = now := by
  rw [latest, seen, List.foldl_append]
  exact if_pos h

omit [DecidableEq ν] in
theorem Late.filter {now : Rat} (h : Late now standing) (p : Standing ν → Bool) :
    Late now (standing.filter p) :=
  fun s hs => h s (Option.filter_eq_some_iff.mp hs).1

omit [DecidableEq ν] in
theorem Late.map {now : Rat} (h : Late now standing) {f : Standing ν → Standing ν}
    (hf : ∀ s, f s = s ∨ f s = s.seen now) : Late now (standing.map f) := by
  intro s hs
  obtain ⟨s', hs', rfl⟩ := Option.map_eq_some_iff.mp hs
  rcases hf s' with same | accessed
  · rw [same]
    exact h s' hs'
  · rw [accessed]
    exact (latest_seen (h s' hs')).symm ▸ Rat.le_refl

omit [DecidableEq ν] in
theorem looked_eq (m : Moment ν) (s : Standing ν) : s.looked m = s ∨ s.looked m = s.seen m.now := by
  unfold looked
  split
  next => exact .inl rfl
  next => exact .inr rfl

theorem Late.follow (h : Late m.now standing) (timeToLive : Rat) (key : κ)
    (call : RegistryCall κ ν) : Late m.now (follow timeToLive key m standing call) := by
  cases call <;> simp only [Standing.follow]
  case put k value =>
    split
    next =>
      rintro s ⟨⟩
      exact Rat.le_refl
    next => exact h
  case get k =>
    split
    next => exact (h.filter _).map fun _ => .inr rfl
    next => exact h
  case peek k =>
    split
    next => exact h.map (looked_eq m)
    next => exact h
  case contains k =>
    split
    next => exact h.map (looked_eq m)
    next => exact h
  case touch k value =>
    split
    next =>
      refine h.map fun s => ?_
      split
      next => exact .inr rfl
      next => exact .inl rfl
    next => exact h
  case discard k value =>
    split
    next => exact h.filter _
    next => exact h
  case remove k =>
    split
    next => nofun
    next => exact h
  case purge => exact (h.filter _).map (looked_eq m)
  case close => nofun

end Standing

namespace Registry

variable {κ ν : Type} {r : Registry κ ν} {s : Standing ν} {m : Moment ν} {key : κ}
  {standing : Option (Standing ν)}

theorem isExpired_entry (r : Registry κ ν) (m : Moment ν) (key : κ) (s : Standing ν) :
    r.isExpired m.evictable m.now (s.entry key) = !s.lives r.timeToLive m := by
  rw [isExpired, Standing.lives, Standing.entry, Bool.not_or, Bool.not_not, ← decide_not]
  simp only [Rat.not_lt]

theorem accessed_entry (key : κ) (late : s.latest ≤ m.now) :
    accessed m.now (s.entry key) = (s.seen m.now).entry key := by
  rw [Standing.entry, Standing.entry, Standing.latest_seen late]
  rfl

theorem examined_standing (key : κ) (late : s.latest ≤ m.now) :
    examined m.evictable m.now (s.entry key) = (s.looked m).entry key := by
  unfold examined Standing.looked
  show (if m.evictable s.value = true then _ else accessed m.now (s.entry key)) = _
  rw [accessed_entry key late]
  split <;> rfl

/-- The live entry under a key is the one of a value that lives. -/
theorem filter_entry (r : Registry κ ν) (m : Moment ν) (key : κ) (standing : Option (Standing ν)) :
    ((standing.map (·.entry key)).filter fun e => !r.isExpired m.evictable m.now e) =
      (standing.filter (·.lives r.timeToLive m)).map (·.entry key) := by
  rw [Option.filter_map]
  simp only [Function.comp_def, isExpired_entry, Bool.not_not]

theorem map_entry (key : κ) {f : RegistryEntry κ ν → RegistryEntry κ ν}
    {g : Standing ν → Standing ν}
    (h : ∀ s ∈ standing, f (s.entry key) = (g s).entry key) :
    (standing.map (·.entry key)).map f = (standing.map g).map (·.entry key) := by
  rw [Option.map_map, Option.map_map]
  exact Option.map_congr h

variable [DecidableEq κ] [DecidableEq ν]

omit [DecidableEq ν] in
/-- A call for one key leaves alone what stands under another. -/
theorem held?_own {k : κ} {own : Option (RegistryEntry κ ν)} {mine : Option (Standing ν)}
    (held : r.held? key = standing.map (·.entry key))
    (agree : key = k → own = mine.map (·.entry key)) :
    (if key = k then own else r.held? key) =
      (if key = k then mine else standing).map (·.entry key) := by
  split
  next same => exact agree same
  next => exact held

omit [DecidableEq ν] in
theorem held?_put_standing (held : r.held? key = standing.map (·.entry key)) (now : Rat) (k : κ)
    (value : ν) : (r.put now k value).2.held? key =
      (if key = k then some ⟨value, now, []⟩ else standing).map (·.entry key) :=
  (held?_put r now k key value).trans (held?_own held fun same => by rw [same]; rfl)

omit [DecidableEq ν] in
theorem held?_get_standing (held : r.held? key = standing.map (·.entry key))
    (late : Standing.Late m.now standing) (k : κ) (absent : Failure) :
    (r.get m.evictable m.now k absent).registry.held? key =
      (if key = k then (standing.filter (·.lives r.timeToLive m)).map (·.seen m.now)
        else standing).map (·.entry key) := by
  refine (held?_get r m.evictable m.now k key absent).trans (held?_own held fun same => ?_)
  rw [← same, held, filter_entry]
  exact map_entry key fun s hs => accessed_entry key (late.filter _ s hs)

omit [DecidableEq ν] in
theorem held?_peek_standing (held : r.held? key = standing.map (·.entry key))
    (late : Standing.Late m.now standing) (k : κ) :
    (r.peek m.evictable m.now k).2.held? key =
      (if key = k then standing.map (·.looked m) else standing).map (·.entry key) := by
  refine (held?_peek r m.evictable m.now k key).trans (held?_own held fun same => ?_)
  rw [← same, held]
  exact map_entry key fun s hs => examined_standing key (late s hs)

theorem held?_touch_standing (held : r.held? key = standing.map (·.entry key))
    (late : Standing.Late m.now standing) (k : κ) (value : ν) :
    (r.touch m.now k value).2.held? key =
      (if key = k then standing.map fun s => if s.value = value then s.seen m.now else s
        else standing).map (·.entry key) := by
  refine (held?_touch r m.now k key value).trans (held?_own held fun same => ?_)
  rw [← same, held]
  refine map_entry key fun s hs => ?_
  show (if s.value = value then _ else _) = _
  split
  next => exact accessed_entry key (late s hs)
  next => rfl

theorem held?_discard_standing (held : r.held? key = standing.map (·.entry key)) (k : κ)
    (value : ν) : (r.discard k value).2.held? key =
      (if key = k then standing.filter (·.value ≠ value) else standing).map (·.entry key) := by
  refine (held?_discard r k key value).trans (held?_own held fun same => ?_)
  rw [← same, held, Option.filter_map]
  rfl

omit [DecidableEq ν] in
theorem held?_remove_standing (held : r.held? key = standing.map (·.entry key)) (k : κ) :
    (r.remove k).registry.held? key = (if key = k then none else standing).map (·.entry key) :=
  (held?_remove r k key).trans (held?_own held fun _ => rfl)

omit [DecidableEq ν] in
theorem held?_purge_standing (h : r.Keyed) (held : r.held? key = standing.map (·.entry key))
    (late : Standing.Late m.now standing) :
    (r.purge m.evictable m.now).registry.held? key =
      ((standing.filter (·.lives r.timeToLive m)).map (·.looked m)).map (·.entry key) := by
  rw [h.held?_purge, held, filter_entry]
  exact map_entry key fun s hs => examined_standing key (late.filter _ s hs)

/-- The entry under a key follows what stands there. -/
theorem held?_follow (h : r.Keyed) (held : r.held? key = standing.map (·.entry key))
    (late : Standing.Late m.now standing) (absent : κ → Failure) (call : RegistryCall κ ν) :
    (r.follow absent m call).registry.held? key =
      (Standing.follow r.timeToLive key m standing call).map (·.entry key) := by
  cases call with
  | put k value => exact held?_put_standing held m.now k value
  | get k => exact held?_get_standing held late k (absent k)
  | peek k => exact held?_peek_standing held late k
  | contains k => exact held?_peek_standing held late k
  | touch k value => exact held?_touch_standing held late k value
  | discard k value => exact held?_discard_standing held k value
  | remove k => exact held?_remove_standing held k
  | purge => exact held?_purge_standing h held late
  | close => exact held?_close r key

theorem after_cons (absent : κ → Failure) (r : Registry κ ν) (e : RegistryEvent κ ν)
    (rest : List (RegistryEvent κ ν)) :
    r.after absent (e :: rest) = (r.follow absent e.moment e.call).registry.after absent rest :=
  rfl

theorem Keyed.after (h : r.Keyed) (absent : κ → Failure) (events : List (RegistryEvent κ ν)) :
    (r.after absent events).Keyed := by
  induction events generalizing r with
  | nil => exact h
  | cons e rest ih => exact ih (h.follow absent e.moment e.call)

theorem after_terms (absent : κ → Failure) (r : Registry κ ν) (events : List (RegistryEvent κ ν)) :
    r.SameTerms (r.after absent events) := by
  induction events generalizing r with
  | nil => exact ⟨rfl, rfl⟩
  | cons e rest ih =>
    obtain ⟨time, listens⟩ := follow_terms absent r e.moment e.call
    obtain ⟨time', listens'⟩ := ih (r.follow absent e.moment e.call).registry
    exact ⟨time'.trans time, listens'.trans listens⟩

/-- Only a cleaner of the registry's own is stopped, and only by closing. -/
theorem after_cleaner (absent : κ → Failure) (r : Registry κ ν)
    (events : List (RegistryEvent κ ν)) (stopped : (r.after absent events).cleaner = .stopped) :
    r.cleaner = .stopped ∨ (r.cleaner ≠ .direct ∧ ∃ e ∈ events, e.call = .close) := by
  induction events generalizing r with
  | nil => exact .inl stopped
  | cons e rest ih =>
    obtain ⟨direct, closed⟩ := follow_cleaner absent r e.moment e.call
    rcases ih _ stopped with earlier | ⟨own, e', he', hclose⟩
    · rcases closed earlier with before | now
      · exact .inl before
      · refine .inr ⟨fun h => ?_, e, List.mem_cons_self, now⟩
        exact nomatch (direct.mpr h).symm.trans earlier
    · exact .inr ⟨fun h => own (direct.mpr h), e', List.mem_cons_of_mem e he', hclose⟩

/-- In the course of time, the entry under a key is the one of the value that stands there. -/
theorem held?_events (h : r.Keyed) (held : r.held? key = standing.map (·.entry key))
    (absent : κ → Failure) (events : List (RegistryEvent κ ν))
    (late : ∀ e ∈ events, Standing.Late e.moment.now standing)
    (ordered : events.Pairwise fun e e' => e.moment.now ≤ e'.moment.now) :
    (r.after absent events).held? key =
      (events.foldl (fun s e => Standing.follow r.timeToLive key e.moment s e.call) standing).map
        (·.entry key) := by
  induction events generalizing r standing with
  | nil => exact held
  | cons e rest ih =>
    obtain ⟨first, others⟩ := List.pairwise_cons.mp ordered
    have here := late e List.mem_cons_self
    have next := held?_follow h held here absent e.call
    rw [after_cons, ih (h.follow absent e.moment e.call) next
      (fun e' he' s hs => Rat.le_trans (here.follow _ key e.call s hs) (first e' he')) others,
      (follow_terms absent r e.moment e.call).1]
    rfl

theorem held?_after {timeToLive : Rat} {listens : Bool} {cleaner : Cleaner} {r₀ : Registry κ ν}
    (made : Registry.new timeToLive listens cleaner = .ok r₀) (absent : κ → Failure)
    (events : List (RegistryEvent κ ν))
    (ordered : events.Pairwise fun e e' => e.moment.now ≤ e'.moment.now) (key : κ) :
    (r₀.after absent events).held? key =
      (Standing.after timeToLive key events).map (·.entry key) := by
  have nothing : r₀.held? key = (none : Option (Standing ν)).map (·.entry key) := by
    rw [new_eq made]
    rfl
  rw [held?_events (.of_new made) nothing absent events (fun _ _ => nofun) ordered, new_eq made]
  rfl

omit [DecidableEq ν] in
theorem peek_standing (held : r.held? key = standing.map (·.entry key)) (m : Moment ν) :
    (r.peek m.evictable m.now key).1 =
      (standing.filter (·.lives r.timeToLive m)).map (·.value) := by
  rw [peek_live, held]
  cases standing with
  | none => rfl
  | some s =>
    rw [Option.map_some, Option.bind_some, isExpired_entry, Option.filter_some]
    cases s.lives r.timeToLive m <;> rfl

omit [DecidableEq ν] in
theorem peek_unchanged (gone : (r.peek m.evictable m.now key).1 = none) :
    r.peek m.evictable m.now key = (none, r) := by
  rw [peek_live] at gone
  unfold peek
  split
  next => rfl
  next e found =>
    rw [found, Option.bind_some] at gone
    split
    next => rfl
    next live => rw [if_neg live] at gone; cases gone

omit [DecidableEq ν] in
theorem get_ok_iff (r : Registry κ ν) (m : Moment ν) (key : κ) (absent : Failure) (value : ν) :
    (r.get m.evictable m.now key absent).answer = .ok value ↔
      (r.peek m.evictable m.now key).1 = some value := by
  refine ⟨fun h => ?_, fun h => by rw [get_some h]⟩
  rw [← get_answer r m.evictable m.now key absent, h]
  rfl

omit [DecidableEq ν] in
/-- Reading a key without a live value leaves nothing there. It fails for want of a value, unless
the removal cannot be told. -/
theorem get_expired (m : Moment ν) (absent : Failure)
    (gone : (r.peek m.evictable m.now key).1 = none) :
    let removal := r.get m.evictable m.now key absent
    removal.registry.value? key = none ∧
      removal.answer = .error (if (r.value? key).isSome ∧ r.listens = true ∧ r.cleaner = .stopped
        then .cleanerStopped else absent) := by
  rw [peek_live] at gone
  unfold get
  split
  next found => simp [value?, found]
  next e found =>
    rw [found, Option.bind_some] at gone
    have expired : r.isExpired m.evictable m.now e = true := by
      cases h : r.isExpired m.evictable m.now e
      · rw [h] at gone
        cases gone
      · rfl
    rw [if_pos expired]
    refine ⟨by rw [value?, held?_tell, held?_erase, if_pos rfl]; rfl, ?_⟩
    rw [value?_of_held found, tell]
    cases hlistens : r.listens with
    | false => simp [erase, hlistens]
    | true => cases hcleaner : r.cleaner <;> simp [erase, hlistens, hcleaner]

omit [DecidableEq κ] [DecidableEq ν] in
/-- What has been purged has nothing to purge at the same moment. -/
theorem purge_again (r : Registry κ ν) (m : Moment ν) :
    let purged := (r.purge m.evictable m.now).registry
    purged.purge m.evictable m.now = ⟨.ok 0, [], purged⟩ := by
  intro purged
  have time : purged.timeToLive = r.timeToLive :=
    (tell_terms { r with entries := _ } _ _).1
  have entries : purged.entries =
      (r.entries.filter fun e => !r.isExpired m.evictable m.now e).map
        (examined m.evictable m.now) := tell_entries _ _ _
  have fresh : ∀ e ∈ purged.entries, purged.isExpired m.evictable m.now e = false ∧
      examined m.evictable m.now e = e := by
    intro e he
    rw [entries] at he
    obtain ⟨e', he', rfl⟩ := List.mem_map.mp he
    have kept := (List.mem_filter.mp he').2
    unfold examined
    cases stays : m.evictable e'.value with
    | false => simp [isExpired, stays]
    | true => simpa [isExpired, stays, time] using kept
  have gone : purged.entries.filter (purged.isExpired m.evictable m.now) = [] :=
    List.filter_eq_nil_iff.mpr fun e he => by simp [(fresh e he).1]
  have kept : (purged.entries.filter fun e => !purged.isExpired m.evictable m.now e).map
      (examined m.evictable m.now) = purged.entries := by
    rw [List.filter_eq_self.mpr fun e he => by simp [(fresh e he).1]]
    exact (List.map_congr_left fun e he => (fresh e he).2).trans (List.map_id _)
  rw [purge, gone, kept, tell, List.map_nil, List.isEmpty_nil, Bool.or_true, if_pos rfl]
  rfl

/-- Which values the four observers of a registry find is told by its history: a value lives while
it may not expire and for a time after its latest access. Where there is none, reading removes and
purging keeps nothing, and a second purge does nothing at all. Only the failure of a read is another
one when the removal cannot be told, since closing has stopped the registry's own cleaner. -/
theorem observers_agree {timeToLive : Rat} {listens : Bool} {cleaner : Cleaner}
    {r₀ : Registry κ ν} (made : Registry.new timeToLive listens cleaner = .ok r₀)
    (absent : κ → Failure) (events : List (RegistryEvent κ ν))
    (ordered : events.Pairwise fun e e' => e.moment.now ≤ e'.moment.now) (m : Moment ν) (key : κ) :
    let r := r₀.after absent events
    let standing := Standing.after timeToLive key events
    let live value := ∃ s, standing = some s ∧ s.value = value ∧
      (m.evictable value = false ∨ m.now - s.latest < timeToLive)
    let read := r.get m.evictable m.now key (absent key)
    let purged := r.purge m.evictable m.now
    r.value? key = standing.map (·.value) ∧
    (∀ value, read.answer = .ok value ↔ live value) ∧
    (∀ value, (r.peek m.evictable m.now key).1 = some value ↔ live value) ∧
    ((r.contains m.evictable m.now key).1 = true ↔ ∃ value, live value) ∧
    (∀ value, purged.registry.value? key = some value ↔ live value) ∧
    ((¬ ∃ value, live value) →
      read.answer = .error (if standing.isSome ∧ listens = true ∧ r.cleaner = .stopped
        then .cleanerStopped else absent key) ∧
      read.registry.value? key = none ∧
      r.peek m.evictable m.now key = (none, r) ∧ purged.registry.value? key = none) ∧
    (r.cleaner = .stopped →
      cleaner = .stopped ∨ (cleaner ≠ .direct ∧ ∃ e ∈ events, e.call = .close)) ∧
    purged.registry.purge m.evictable m.now = ⟨.ok 0, [], purged.registry⟩ := by
  intro r standing live read purged
  have held : r.held? key = standing.map (·.entry key) := held?_after made absent events ordered key
  have terms : r.timeToLive = timeToLive ∧ r.listens = listens := by
    obtain ⟨time, same⟩ := after_terms absent r₀ events
    exact ⟨time.trans (by rw [new_eq made]), same.trans (by rw [new_eq made])⟩
  have present : r.value? key = standing.map (·.value) := by
    rw [value?, held, Option.map_map]
    rfl
  have found : ∀ value,
      (standing.filter (·.lives timeToLive m)).map (·.value) = some value ↔ live value := by
    intro value
    rw [Option.map_eq_some_iff]
    refine exists_congr fun s => ?_
    rw [Option.filter_eq_some_iff, and_assoc, and_congr_right_iff]
    intro _
    rw [and_comm, and_congr_right_iff]
    rintro rfl
    simp [Standing.lives]
  have peeked : ∀ value, (r.peek m.evictable m.now key).1 = some value ↔ live value := by
    intro value
    rw [peek_standing held, terms.1, found]
  have kept : ∀ value, purged.registry.value? key = some value ↔ live value := by
    intro value
    have keyed : r.Keyed := (Keyed.of_new made).after absent events
    rw [← found, value?, keyed.held?_purge, held, filter_entry, terms.1, Option.map_map,
      Option.map_map]
    refine iff_of_eq (congrArg (· = some value) (Option.map_congr fun s _ => ?_))
    exact (examined_entry m.evictable m.now (s.entry key)).2
  refine ⟨present, fun value => (get_ok_iff r m key _ value).trans (peeked value), peeked, ?_, kept,
    fun dead => ?_, ?_, purge_again r m⟩
  · exact Option.isSome_iff_exists.trans (exists_congr peeked)
  · have gone : (r.peek m.evictable m.now key).1 = none :=
      Option.eq_none_iff_forall_ne_some.mpr fun value h => dead ⟨value, (peeked value).mp h⟩
    obtain ⟨removed, answer⟩ := get_expired m (absent key) gone
    refine ⟨?_, removed, peek_unchanged gone,
      Option.eq_none_iff_forall_ne_some.mpr fun value h => dead ⟨value, (kept value).mp h⟩⟩
    rw [answer, present, terms.2, Option.isSome_map]
  · intro stopped
    have origin := after_cleaner absent r₀ events stopped
    rw [new_eq made] at origin
    exact origin

/-- A value that was looked at before it might expire, and read later, lives for ten seconds from
then. -/
theorem observers_agree_ten :
    let calls : List (Rat × Bool × RegistryCall Nat Nat) :=
      [(0, false, .put 1 7), (8, false, .purge), (16, true, .get 1), (17, true, .peek 1)]
    let events : List (RegistryEvent Nat Nat) := calls.map fun c => ⟨⟨c.1, fun _ => c.2.1⟩, c.2.2⟩
    let absent : Nat → Failure := fun key => .resultNotFound (.int key)
    ∃ r₀ : Registry Nat Nat, Registry.new 10 true .idle = .ok r₀ ∧
      (events.Pairwise fun e e' => e.moment.now ≤ e'.moment.now) ∧
      (let r := r₀.after absent events
       Standing.after 10 1 events = some ⟨7, 0, [8, 16]⟩ ∧
       (r.get (fun _ => true) 25 1 (absent 1)).answer = .ok 7 ∧
       (r.peek (fun _ => true) 25 1).1 = some 7 ∧
       (r.get (fun _ => true) 26 1 (absent 1)).answer = .error (absent 1) ∧
       (r.purge (fun _ => true) 26).registry.value? 1 = none) := by
  intro calls events absent
  let r₀ : Registry Nat Nat := ⟨10, true, .idle, []⟩
  have made : Registry.new 10 true .idle = .ok r₀ := rfl
  have ordered : events.Pairwise fun e e' => e.moment.now ≤ e'.moment.now := by decide +kernel
  have stands : Standing.after 10 1 events = some ⟨7, 0, [8, 16]⟩ := by decide +kernel
  obtain ⟨_, read, peeked, _⟩ :=
    observers_agree made absent events ordered ⟨25, fun _ => true⟩ 1
  obtain ⟨_, _, _, _, _, expired, _⟩ :=
    observers_agree made absent events ordered ⟨26, fun _ => true⟩ 1
  have live : (25 : Rat) - Standing.latest (⟨7, 0, [8, 16]⟩ : Standing Nat) < 10 := by
    decide +kernel
  have dead : ¬ (26 : Rat) - Standing.latest (⟨7, 0, [8, 16]⟩ : Standing Nat) < 10 := by
    decide +kernel
  have awake : (r₀.after absent events).cleaner ≠ .stopped := by decide +kernel
  refine ⟨r₀, made, ordered, stands, (read 7).mpr ⟨_, stands, rfl, .inr live⟩,
    (peeked 7).mpr ⟨_, stands, rfl, .inr live⟩, ?_⟩
  obtain ⟨answer, _, _, purged⟩ := expired fun ⟨value, s, hs, _, lives⟩ => by
    cases stands.symm.trans hs
    rcases lives with stays | recent
    · cases stays
    · exact dead recent
  rw [if_neg fun h => awake h.2.2] at answer
  exact ⟨answer, purged⟩

/-- When closing has stopped the cleaner of a registry, a read of a value that has expired fails
with the removal that cannot be told. -/
theorem expired_read_untold :
    let events : List (RegistryEvent Nat Nat) :=
      [.put 1 7, .close, .put 1 7].map fun call => ⟨⟨0, fun _ => true⟩, call⟩
    let absent : Nat → Failure := fun key => .resultNotFound (.int key)
    ∃ r₀ : Registry Nat Nat, Registry.new 10 true .idle = .ok r₀ ∧
      (events.Pairwise fun e e' => e.moment.now ≤ e'.moment.now) ∧
      (let r := r₀.after absent events
       Standing.after 10 1 events = some ⟨7, 0, []⟩ ∧ ¬ (10 : Rat) - 0 < 10 ∧
       (r.get (fun _ => true) 10 1 (absent 1)).answer = .error .cleanerStopped ∧
       (r.get (fun _ => true) 10 1 (absent 1)).answer ≠ .error (absent 1)) := by
  intro events absent
  let r₀ : Registry Nat Nat := ⟨10, true, .idle, []⟩
  let m : Moment Nat := ⟨10, fun _ => true⟩
  have gone : ((r₀.after absent events).peek m.evictable m.now 1).1 = none := by decide +kernel
  have untold : ((r₀.after absent events).get (fun _ => true) 10 1 (absent 1)).answer =
      .error .cleanerStopped := by
    have answer := (get_expired m (absent 1) gone).2
    rw [if_pos (by decide +kernel)] at answer
    exact answer
  refine ⟨r₀, rfl, by decide +kernel, by decide +kernel, by decide +kernel, untold, ?_⟩
  rw [untold]
  nofun

end Registry

end Handover

import Handover.Http.Application
import Handover.Proofs.Uuid
import Mathlib.Data.List.TakeWhile

namespace Handover.Http

/-- A path that a request can name as it is: nothing in it is a query, a fragment or an escape, and
none of its parts stays or goes back. -/
structure Plain (path : String) : Prop where
  characters : '?' ∉ path.toList ∧ '#' ∉ path.toList ∧ '%' ∉ path.toList
  parts : "." ∉ Text.parts '/' path ∧ ".." ∉ Text.parts '/' path

instance (path : String) : Decidable (Plain path) :=
  decidable_of_iff
    (('?' ∉ path.toList ∧ '#' ∉ path.toList ∧ '%' ∉ path.toList) ∧
      "." ∉ Text.parts '/' path ∧ ".." ∉ Text.parts '/' path)
    ⟨fun h => ⟨h.1, h.2⟩, fun h => ⟨h.characters, h.parts⟩⟩

theorem textOfBytes_nil : textOfBytes [] = [] := by
  decide +kernel

theorem unescaped_plain {cs : List Char} (h : '%' ∉ cs) : unescaped cs = cs := by
  unfold unescaped
  induction cs with
  | nil => rw [unescapedFrom]; exact textOfBytes_nil
  | cons ch rest ih =>
    obtain ⟨hch, hrest⟩ : '%' ≠ ch ∧ '%' ∉ rest := by simpa using h
    rw [unescapedFrom.eq_def]
    split
    next same => cases same; exact absurd rfl hch
    next same =>
      cases same
      rw [ih hrest]
      exact congrArg (· ++ _) textOfBytes_nil
    next same => cases same

theorem intercalate_parts (path : String) : "/".intercalate (Text.parts '/' path) = path := by
  refine String.toList_injective ?_
  rw [String.toList_intercalate, Text.parts, List.map_map]
  simp [Function.comp_def]

theorem pathOf_plain {path : String} (h : Plain path) (nonempty : path ≠ "") :
    pathOf path = path := by
  have whole : path.toList.takeWhile (fun ch => ch ≠ '?' && ch ≠ '#') = path.toList := by
    refine List.takeWhile_eq_self_iff.mpr fun ch hch => ?_
    obtain ⟨query, fragment, _⟩ := h.characters
    have other : ch ≠ '?' ∧ ch ≠ '#' := ⟨fun same => query (same ▸ hch),
      fun same => fragment (same ▸ hch)⟩
    simp [other]
  have stays : stepped (Text.parts '/' path) = Text.parts '/' path := by
    rw [stepped, if_neg (by simpa using h.parts)]
  have unescaped := h.characters.2.2
  rw [pathOf, whole, String.ofList_toList, if_neg (by simpa using nonempty), stays,
    intercalate_parts, unescaped_plain unescaped, unescaped_plain unescaped, String.ofList_toList]

theorem parts_slash (first second : String) : Text.parts '/' (first ++ "/" ++ second) =
    Text.parts '/' first ++ Text.parts '/' second := by
  have split := List.splitOn_append_cons_self (a := '/') first.toList second.toList
  simp [Text.parts, split]

theorem Plain.slash {first second : String} (h : Plain first) (h' : Plain second) :
    Plain (first ++ "/" ++ second) where
  characters := by
    simp [h.characters, h'.characters]
  parts := by
    simp [parts_slash, h.parts, h'.parts]

theorem hexDigit_plain : ∀ d : Fin 16, Text.hexDigit d ≠ '/' ∧ Text.hexDigit d ≠ '?' ∧
    Text.hexDigit d ≠ '#' ∧ Text.hexDigit d ≠ '%' := by
  decide

theorem text_characters {tenant : Uuid} {ch : Char} (h : ch ∈ tenant.text.toList) :
    ch ≠ '/' ∧ ch ≠ '?' ∧ ch ≠ '#' ∧ ch ≠ '%' := by
  rcases Uuid.mem_text h with rfl | ⟨d, rfl⟩
  · decide
  · exact hexDigit_plain d

theorem parts_text (tenant : Uuid) : Text.parts '/' tenant.text = [tenant.text] := by
  have single : '/' ∉ tenant.text.toList := fun hm => (text_characters hm).1 rfl
  rw [Text.parts, List.splitOn_eq_singleton single, List.map_singleton, String.ofList_toList]

theorem plain_text (tenant : Uuid) : Plain tenant.text where
  characters := ⟨fun hm => (text_characters hm).2.1 rfl, fun hm => (text_characters hm).2.2.1 rfl,
    fun hm => (text_characters hm).2.2.2 rfl⟩
  parts := by
    have length := tenant.length_text
    refine ⟨fun hm => ?_, fun hm => ?_⟩
    all_goals
      rw [parts_text] at hm
      rw [← List.mem_singleton.mp hm] at length
      cases length

theorem fit?_fixed (texts : List String) (parts : List Part) (rest : List String) :
    fit? (texts.map .fixed ++ parts) (texts ++ rest) = fit? parts rest := by
  induction texts with
  | nil => rfl
  | cons text more ih =>
    rw [List.map_cons, List.cons_append, List.cons_append, fit?, if_pos rfl, ih]

theorem fit?_length {parts : List Part} {texts : List String}
    (h : parts.length ≠ texts.length) : fit? parts texts = none := by
  induction parts generalizing texts with
  | nil =>
    cases texts with
    | nil => exact absurd rfl h
    | cons => rfl
  | cons part parts ih =>
    cases texts with
    | nil => cases part <;> rfl
    | cons text texts =>
      have further := @ih texts (by simpa using h)
      cases part <;> simp [fit?, further]

theorem destination_one {routes : List Route} {route : Route} {path tenant : String}
    (one : fitting routes path = [(route, tenant)]) :
    destination routes route.method path = .found route.endpoint tenant := by
  rw [destination, one]
  simp

theorem parts_below (apiPath last : String) (single : Text.parts '/' last = [last]) :
    Text.parts '/' (apiPath ++ ("/export/" ++ last)) =
      Text.parts '/' apiPath ++ ["export", last] := by
  have split : apiPath ++ ("/export/" ++ last) = apiPath ++ "/" ++ ("export" ++ "/" ++ last) := by
    rw [show "/export/" = "/" ++ ("export" ++ "/") from rfl]
    simp only [String.append_assoc]
  rw [split, parts_slash, parts_slash, single]
  rfl

/-- The parts of the path under which exports are. -/
theorem parts_exports (apiPath : String) : Text.parts '/' (apiPath ++ "/export/tenants") =
    Text.parts '/' apiPath ++ ["export", "tenants"] :=
  parts_below apiPath "tenants" rfl

theorem fit?_exports (apiPath : String) (parts : List Part) (rest : List String) :
    fit? (fixedParts (apiPath ++ "/export/tenants") ++ parts)
      (Text.parts '/' (apiPath ++ "/export/tenants") ++ rest) = fit? parts rest :=
  fit?_fixed _ _ _

/-- Paths under which exports are do not fit other routes. -/
theorem fit?_others (apiPath : String) (rest : List String) :
    let parts := Text.parts '/' (apiPath ++ "/export/tenants") ++ rest
    fit? (fixedParts (apiPath ++ "/export/queue")) parts = none ∧
      fit? (fixedParts "/health") parts = none ∧ fit? (fixedParts "/") parts = none := by
  intro parts
  have queue : Text.parts '/' (apiPath ++ "/export/queue") =
      Text.parts '/' apiPath ++ ["export", "queue"] := parts_below apiPath "queue" rfl
  have size : 2 < parts.length := by
    have some : 0 < (Text.parts '/' apiPath).length := by
      rw [Text.parts, List.length_map]
      exact List.length_pos_iff.mpr (List.splitOn_ne_nil _ _)
    simp only [parts, parts_exports, List.length_append, List.length_cons, List.length_nil]
    omega
  refine ⟨?_, fit?_length (Nat.ne_of_lt size), fit?_length (Nat.ne_of_lt size)⟩
  rw [fixedParts, queue, List.map_append]
  simp only [parts, parts_exports, List.append_assoc]
  rw [fit?_fixed]
  rfl

/-- The routes of exports, by what stands in their paths after that of all exports. -/
def exportRoutes : List Route :=
  [⟨"POST", [], .submit⟩, ⟨"GET", [.tenant, .fixed "status"], .status⟩,
    ⟨"GET", [.tenant, .fixed "download"], .download⟩, ⟨"DELETE", [.tenant], .delete⟩]

def belowExports (apiPath : String) (route : Route) : Route :=
  { route with parts := fixedParts (apiPath ++ "/export/tenants") ++ route.parts }

/-- The routes of exports that the rest of a path fits, with the identifier in it. -/
def exportFits (rest : List String) : List (Route × String) :=
  exportRoutes.filterMap fun route => (fit? route.parts rest).map fun text => (route, text)

/-- The routes that a path below that of all exports fits go by the rest of it. -/
theorem fitting_exports (apiPath : String) {path : String} {rest : List String}
    (here : Text.parts '/' path = Text.parts '/' (apiPath ++ "/export/tenants") ++ rest) :
    fitting (routes apiPath) path =
      (exportFits rest).map fun fit => (belowExports apiPath fit.1, fit.2) := by
  obtain ⟨queue, health, welcome⟩ := fit?_others apiPath rest
  have all : routes apiPath = exportRoutes.map (belowExports apiPath) ++
      [⟨"GET", fixedParts (apiPath ++ "/export/queue"), .queue⟩,
        ⟨"GET", fixedParts "/health", .health⟩, ⟨"GET", fixedParts "/", .welcome⟩] := by
    simp [routes, exportRoutes, belowExports]
  have others : ∀ route ∈ ([⟨"GET", fixedParts (apiPath ++ "/export/queue"), .queue⟩,
      ⟨"GET", fixedParts "/health", .health⟩, ⟨"GET", fixedParts "/", .welcome⟩] : List Route),
      (fit? route.parts (Text.parts '/' path)).map (fun tenant => (route, tenant)) = none := by
    rw [here]
    simp [queue, health, welcome]
  have below : ∀ route, fit? (belowExports apiPath route).parts (Text.parts '/' path) =
      fit? route.parts rest := by
    intro route
    rw [here]
    exact fit?_exports apiPath route.parts rest
  rw [fitting, all, List.filterMap_append, List.filterMap_map,
    List.filterMap_eq_nil_iff.mpr others, List.append_nil, exportFits, List.map_filterMap]
  simp only [Function.comp_def, below, Option.map_map]

theorem isEmpty_text (tenant : Uuid) : tenant.text.isEmpty = false := by
  have length := tenant.length_text
  rw [Bool.eq_false_iff]
  intro empty
  rw [String.isEmpty_iff.mp empty] at length
  cases length

theorem pathTenant_text (tenant : Uuid) : pathTenant tenant.text = .valid tenant := by
  rw [pathTenant, tenant.ofStrictText?_text]

theorem bodyTenant_text (tenant : Uuid) : bodyTenant (some (.str tenant.text)) = .valid tenant := by
  rw [bodyTenant, tenant.ofStrictText?_text]

/-- The types that are to be left out are read back from their names. -/
theorem bodySkipped_texts (skipped : List RecordType) :
    bodySkipped (some (.list (skipped.map fun type => .str type.text))) = .valid skipped := by
  have item : ∀ (type : RecordType) (place : Nat),
      skippedItem (.str type.text, place) = .valid type := by
    intro type place
    cases type <;> rfl
  have items : ∀ (types : List RecordType) (place : Nat),
      Checked.each skippedItem ((types.map fun type => Value.str type.text).zipIdx place) =
        .valid types := by
    intro types
    induction types with
    | nil => exact fun _ => rfl
    | cons type rest ih =>
      intro place
      rw [List.map_cons, List.zipIdx_cons, Checked.each, item, ih]
      rfl
  exact items skipped 0

/-- What the body of a request says that asks for an export. -/
def exportBody (tenant : Uuid) (skipped : List RecordType) : Value :=
  Value.ofTexts [("tenant_id", .str tenant.text),
    ("skipped", .list (skipped.map fun type => .str type.text))]

theorem exportRequest_body (tenant : Uuid) (skipped : List RecordType) :
    exportRequest (some (exportBody tenant skipped)) = .valid ⟨tenant, skipped⟩ := by
  have named : field? [(.str "tenant_id", .str tenant.text),
      (.str "skipped", .list (skipped.map fun type => .str type.text))] "tenant_id" =
        some (.str tenant.text) := by simp [field?]
  have left : field? [(.str "tenant_id", .str tenant.text),
      (.str "skipped", .list (skipped.map fun type => .str type.text))] "skipped" =
        some (.list (skipped.map fun type => .str type.text)) := by simp [field?]
  show ExportRequest.mk <$> bodyTenant (field? [_, _] "tenant_id")
    <*> bodySkipped (field? [_, _] "skipped") = _
  rw [named, left, bodyTenant_text, bodySkipped_texts]
  rfl

namespace Application

variable {δ : Type} {app : Application δ}

/-- Where a request leads. -/
def leads (app : Application δ) (request : Request) : Destination :=
  destination (routes app.settings.apiPath) request.method (pathOf request.target)

/-- Whether a request asks an endpoint for the export of a tenant: it asks for the export in its
body, or it names the tenant in its path. -/
inductive Asks (app : Application δ) (tenant : Uuid) : Endpoint → Request → Prop where
  | submission {request : Request} {text : String} {content : Option Value}
      {skipped : List RecordType} (leads : app.leads request = .found .submit text)
      (read : request.body.read = .valid content)
      (wanted : exportRequest content = .valid ⟨tenant, skipped⟩) : Asks app tenant .submit request
  | named {endpoint : Endpoint} {request : Request} {text : String}
      (about : endpoint = .status ∨ endpoint = .download ∨ endpoint = .delete)
      (leads : app.leads request = .found endpoint text)
      (named : pathTenant text = .valid tenant) : Asks app tenant endpoint request

/-- A path below that of all exports leads where the only route leads that it fits. -/
theorem leads_below {method path text : String} {rest : List String} {parts : List Part}
    {endpoint : Endpoint} (body : RequestBody) (plain : Plain path) (nonempty : path ≠ "")
    (here : Text.parts '/' path =
      Text.parts '/' (app.settings.apiPath ++ "/export/tenants") ++ rest)
    (only : exportFits rest = [(⟨method, parts, endpoint⟩, text)]) :
    app.leads ⟨method, path, body⟩ = .found endpoint text := by
  have fits := fitting_exports app.settings.apiPath here
  rw [only] at fits
  have found := destination_one fits
  rw [leads, pathOf_plain plain nonempty]
  exact found

/-- The path of all exports can be named as it is if that of the service can. -/
theorem plain_exports {apiPath : String} (plain : Plain apiPath) :
    Plain (apiPath ++ "/export/tenants") := by
  have split : apiPath ++ "/export/tenants" = apiPath ++ "/" ++ "export/tenants" := by
    rw [String.append_assoc]
    rfl
  have fixed : Plain "export/tenants" := by decide +kernel
  rw [split]
  exact plain.slash fixed

/-- The addresses of the exports of a tenant lead to the endpoints that they are meant for. -/
theorem asks_addresses (plain : Plain app.settings.apiPath) (tenant : Uuid) (body : RequestBody) :
    app.Asks tenant .status ⟨"GET", exportPath app.settings tenant "status", body⟩ ∧
      app.Asks tenant .download ⟨"GET", exportPath app.settings tenant "download", body⟩ ∧
      app.Asks tenant .delete
        ⟨"DELETE", app.settings.apiPath ++ "/export/tenants/" ++ tenant.text, body⟩ ∧
      ∀ skipped, app.Asks tenant .submit
        ⟨"POST", app.settings.apiPath ++ "/export/tenants", .value (exportBody tenant skipped)⟩ := by
  let exports := app.settings.apiPath ++ "/export/tenants"
  have plainExports : Plain exports := plain_exports plain
  have plainTenant : Plain (exports ++ "/" ++ tenant.text) := plainExports.slash (plain_text tenant)
  have own : app.settings.apiPath ++ "/export/tenants/" ++ tenant.text =
      exports ++ "/" ++ tenant.text := by
    simp [exports, String.append_assoc]
  have parts : Text.parts '/' (exports ++ "/" ++ tenant.text) =
      Text.parts '/' exports ++ [tenant.text] := by
    rw [parts_slash, parts_text]
  have text := isEmpty_text tenant
  have about : ∀ (endpoint : Endpoint) (last : String),
      endpoint = .status ∨ endpoint = .download ∨ endpoint = .delete → Plain last →
      Text.parts '/' last = [last] →
      exportFits [tenant.text, last] =
        [(⟨"GET", [.tenant, .fixed last], endpoint⟩, tenant.text)] →
      app.Asks tenant endpoint ⟨"GET", exportPath app.settings tenant last, body⟩ := by
    intro endpoint last about plainLast single only
    have here : Text.parts '/' (exports ++ "/" ++ tenant.text ++ "/" ++ last) =
        Text.parts '/' exports ++ [tenant.text, last] := by
      rw [parts_slash, parts, single, List.append_assoc]
      rfl
    rw [exportPath, own]
    exact .named about
      (leads_below body (plainTenant.slash plainLast) (by simp) here only) (pathTenant_text tenant)
  refine ⟨?_, ?_, ?_, ?_⟩
  · refine about .status "status" (by simp) (by decide +kernel) rfl ?_
    simp [exportFits, exportRoutes, List.filterMap_cons, fit?, text]
  · refine about .download "download" (by simp) (by decide +kernel) rfl ?_
    simp [exportFits, exportRoutes, List.filterMap_cons, fit?, text]
  · have only : exportFits [tenant.text] = [(⟨"DELETE", [.tenant], .delete⟩, tenant.text)] := by
      simp [exportFits, exportRoutes, List.filterMap_cons, fit?, text]
    rw [own]
    exact .named (by simp) (leads_below body plainTenant (by simp) parts only)
      (pathTenant_text tenant)
  · intro skipped
    have only : exportFits [] = [(⟨"POST", [], .submit⟩, "")] := rfl
    exact .submission (leads_below _ plainExports (by simp) (by simp) only) rfl
      (exportRequest_body tenant skipped)

end Application

end Handover.Http

import Stencil.Proofs.Document.Lenient

/-!
# Libraries that are written and read back

Every part of a library is read back from the value that it is written as, in the same order, and
marked as complete.

* `Json.normalize_of_normal` — a value that names no member twice stays as it is;
* `Json.listOf?_map`, `Json.mapOf?_ofMap` — lists and maps whose values are read back;
* `Localized.ofJson?_toJson`, `Bank.ofJson?_toJson`, `Template.ofJson?_toJson` — the parts;
* `Library.reads_back` — the whole library.
-/

namespace Stencil

/-- What each of some values is read back as, after they have been written. -/
theorem mapM_map_eq_some {α β γ : Type} {write : α → γ} {read : γ → Option β} {f : α → β}
    {xs : List α} (h : ∀ x ∈ xs, read (write x) = some (f x)) :
    (xs.map write).mapM read = some (xs.map f) := by
  have hread : ∀ x ∈ xs, (read ∘ write) x = (some ∘ f) x := h
  refine mapM_eq_some_iff.2 ⟨?_, ?_⟩
  · rw [List.filterMap_map, List.filterMap_congr hread, List.filterMap_eq_map]
  · rw [List.forall_mem_map]
    exact fun x hx => Option.isSome_iff_exists.2 ⟨f x, h x hx⟩

/-! ## Values that name no member twice -/

namespace Json

mutual

/-- There is nothing to normalize where no member is named twice. -/
theorem normalize_of_normal : (v : Json) → v.Normal → v.normalize = v
  | arr items, h => by rw [normalize, normalizeItems_of_normal items (by simpa [Normal] using h)]
  | obj members, h => by
    rw [Normal] at h
    rw [normalize, normalizeMembers_of_normal members h.2, OrderedMap.entries_ofList h.1]
  | null, _ | bool _, _ | int _, _ | float _, _ | str _, _ | unreadable, _ => rfl

theorem normalizeItems_of_normal : (vs : List Json) → NormalItems vs → normalizeItems vs = vs
  | [], _ => rfl
  | v :: vs, h => by
    rw [NormalItems] at h
    rw [normalizeItems, normalize_of_normal v h.1, normalizeItems_of_normal vs h.2]

theorem normalizeMembers_of_normal :
    (ms : List (String × Json)) → NormalMembers ms → normalizeMembers ms = ms
  | [], _ => rfl
  | (_, v) :: ms, h => by
    rw [NormalMembers] at h
    rw [normalizeMembers, normalize_of_normal v h.1, normalizeMembers_of_normal ms h.2]

end

/-! ## Lists, maps and fields -/

variable {α β : Type} {read : Json → Option β} {write : α → Json} {f : α → β}

/-- A list is read back if its items are. -/
theorem listOf?_map {xs : List α} (h : ∀ x ∈ xs, read (write x) = some (f x)) :
    listOf? read (.arr (xs.map write)) = some (xs.map f) := mapM_map_eq_some h

/-- A map is read back in order if its values are. -/
theorem mapOf?_ofMap {m : OrderedMap α} (h : ∀ e ∈ m.entries, read (write e.2) = some (f e.2)) :
    mapOf? read (ofMap write m) = some (m.map fun _ => f) := by
  have hentry : ∀ e ∈ m.entries,
      (read (e.1, write e.2).2).map ((e.1, write e.2).1, ·) = some (e.1, f e.2) := fun e he => by
    rw [h e he, Option.map_some]
  rw [ofMap, mapOf?, mapM_map_eq_some hentry, Option.map_some]
  refine congrArg some (OrderedMap.ext_entries (OrderedMap.entries_ofList ?_))
  rw [List.map_map]
  exact m.nodup_keys

variable {known more fields : List (String × Json)} {name : String} {v : Json} {b : β}

/-- Further members do not matter to a field if none has its name. -/
theorem field?_append (h : name ∉ more.map Prod.fst) :
    field? (known ++ more) name = field? known name := by
  have hmore : more.filter (·.1 == name) = [] := List.filter_eq_nil_iff.2 fun m hm hname =>
    h (List.mem_map.2 ⟨m, hm, beq_iff_eq.1 hname⟩)
  rw [field?, field?, List.filter_append, hmore, List.append_nil]

theorem optionalField?_of_some (hfield : field? fields name = some (some v))
    (hread : read v = some b) (hnull : v.isNull = false) :
    optionalField? fields name read = some (some b) := by
  simp [optionalField?, hfield, hnull, hread]

theorem fieldOr?_of_some {default : β} (hfield : field? fields name = some (some v))
    (hread : read v = some b) : fieldOr? fields name default read = some b := by
  simp [fieldOr?, hfield, hread]

end Json

/-! ## Localized texts -/

namespace OrderedMap

@[simp] theorem map_id {α : Type} (m : OrderedMap α) : (m.map fun _ v => v) = m :=
  ext_entries (List.map_id _)

end OrderedMap

namespace Localized

@[simp] theorem ofJson?_toJson (t : Localized) : ofJson? t.toJson = some t := by
  cases t with
  | plain s => rfl
  | localized m =>
    have hmap : Json.mapOf? Json.string? (Json.ofMap .str m) = some (m.map fun _ s => s) :=
      Json.mapOf?_ofMap fun _ _ => rfl
    rw [OrderedMap.map_id] at hmap
    exact congrArg (Option.map localized) hmap

@[simp] theorem isNull_toJson (t : Localized) : t.toJson.isNull = false := by
  cases t <;> rfl

theorem listOf?_toJson (ts : List Localized) :
    Json.listOf? ofJson? (.arr (ts.map toJson)) = some ts := by
  simpa using Json.listOf?_map (f := fun t => t) fun t _ => ofJson?_toJson t

theorem mapOf?_toJson (m : OrderedMap Localized) :
    Json.mapOf? ofJson? (Json.ofMap toJson m) = some m := by
  simpa using Json.mapOf?_ofMap (f := fun t => t) fun e _ => ofJson?_toJson e.2

end Localized

/-! ## Banks and categories -/

namespace Bank

/-- The bank with nothing marked as absent. -/
def clearAbsent (b : Bank) : Bank := { b with absent := {} }

/-- The fields of a bank as they are written. -/
def fields (b : Bank) : List (String × Json) :=
  [("label", b.label.toJson), ("category", .str b.category),
    ("options", .arr (b.options.map Localized.toJson))]

theorem ofJson?_toJson (b : Bank) : ofJson? b.toJson = some b.clearAbsent := by
  have hlabel : Json.optionalField? b.fields "label" Localized.ofJson? = some (some b.label) :=
    Json.optionalField?_of_some rfl b.label.ofJson?_toJson b.label.isNull_toJson
  have hcategory : Json.optionalField? b.fields "category" Json.string? = some (some b.category) :=
    Json.optionalField?_of_some rfl rfl rfl
  have hoptions : Json.optionalField? b.fields "options" (Json.listOf? Localized.ofJson?) =
      some (some b.options) :=
    Json.optionalField?_of_some rfl (Localized.listOf?_toJson b.options) rfl
  have hfields : b.toJson.fields? ["label", "category", "options"] 3 .refused = some b.fields := rfl
  simp [ofJson?, hfields, hlabel, hcategory, hoptions, clearAbsent]

end Bank

namespace Category

/-- The fields of a category as they are written. -/
def fields (c : Category) : List (String × Json) :=
  [("label", c.label.toJson), ("color", .str c.color)]

theorem ofJson?_toJson (c : Category) : ofJson? c.toJson = some c := by
  have hlabel : Json.fieldOr? c.fields "label" .empty Localized.ofJson? = some c.label :=
    Json.fieldOr?_of_some rfl c.label.ofJson?_toJson
  have hcolor : Json.fieldOr? c.fields "color" "slate" Json.string? = some c.color :=
    Json.fieldOr?_of_some rfl rfl
  have hfields : c.toJson.fields? ["label", "color"] 0 .refused = some c.fields := rfl
  simp [ofJson?, hfields, hlabel, hcolor]

end Category

/-! ## Templates -/

/-- Extra fields are read back, since none is named twice and all are readable. -/
theorem ExtraFields.ofMembers?_members (e : ExtraFields) :
    ofMembers? e.members = some e := by
  obtain ⟨members, normal, readable⟩ := e
  have hnormal : members.map Prod.fst |>.Nodup := by
    rw [Json.Normal] at normal
    exact normal.1
  have hmembers : Json.normalizeMembers members = members :=
    Json.normalizeMembers_of_normal members (by rw [Json.Normal] at normal; exact normal.2)
  rw [ofMembers?, dif_pos readable]
  simp only [hmembers, OrderedMap.entries_ofList hnormal]

theorem TemplateKind.ofJson?_toJson (kind : TemplateKind) : ofJson? kind.toJson = some kind := by
  cases kind <;> rfl

namespace Template

/-- The template with nothing marked as absent. -/
def clearAbsent (t : Template) : Template := { t with absent := {} }

/-- The fields with a meaning as they are written. -/
def knownFields (t : Template) : List (String × Json) :=
  [("id", .str t.id), ("name", t.name.toJson), ("content", t.content.toJson),
    ("selections", Json.ofMap Localized.toJson t.selections), ("tags", .arr (t.tags.map .str)),
    ("type", t.kind.toJson)]

/-- No extra field has the name of a field with a meaning. -/
def ExtraApart (t : Template) : Prop :=
  ∀ name ∈ fieldNames, name ∉ t.extra.members.map Prod.fst

instance (t : Template) : Decidable t.ExtraApart :=
  inferInstanceAs (Decidable (∀ name ∈ fieldNames, name ∉ t.extra.members.map Prod.fst))

variable {t : Template}

theorem field?_toJson (h : t.ExtraApart) {name : String} (hname : name ∈ fieldNames) :
    Json.field? (t.knownFields ++ t.extra.members) name = Json.field? t.knownFields name :=
  Json.field?_append (h name hname)

theorem extraFields?_toJson (h : t.ExtraApart) :
    extraFields? (t.knownFields ++ t.extra.members) = some t.extra := by
  have hknown : t.knownFields.filter (fun m => !fieldNames.contains m.1) = [] := rfl
  have hextra : t.extra.members.filter (fun m => !fieldNames.contains m.1) = t.extra.members := by
    refine List.filter_eq_self.2 fun m hm => ?_
    have hnew : m.1 ∉ fieldNames := fun hname => h m.1 hname (List.mem_map_of_mem hm)
    simpa using hnew
  rw [extraFields?, List.filter_append, hknown, hextra, List.nil_append]
  exact t.extra.ofMembers?_members

/-- A template is read back, except that nothing is marked as absent. -/
theorem ofJson?_toJson (h : t.ExtraApart) : ofJson? t.toJson = some t.clearAbsent := by
  let fields := t.knownFields ++ t.extra.members
  -- the extra fields have other names, so a field is looked up among the known ones
  have hfield {name : String} {v : Json} (hname : name ∈ fieldNames)
      (hv : Json.field? t.knownFields name = some (some v)) :
      Json.field? fields name = some (some v) := (field?_toJson h hname).trans hv
  have hid : Json.field? fields "id" = some (some (.str t.id)) := hfield (by simp [fieldNames]) rfl
  have hname : Json.optionalField? fields "name" Localized.ofJson? = some (some t.name) :=
    Json.optionalField?_of_some (hfield (by simp [fieldNames]) rfl) t.name.ofJson?_toJson
      t.name.isNull_toJson
  have hcontent : Json.optionalField? fields "content" Localized.ofJson? = some (some t.content) :=
    Json.optionalField?_of_some (hfield (by simp [fieldNames]) rfl) t.content.ofJson?_toJson
      t.content.isNull_toJson
  have hselections : Json.optionalField? fields "selections" (Json.mapOf? Localized.ofJson?) =
      some (some t.selections) :=
    Json.optionalField?_of_some (hfield (by simp [fieldNames]) rfl)
      (Localized.mapOf?_toJson t.selections) rfl
  have htags : Json.fieldOr? fields "tags" [] (Json.listOf? Json.string?) = some t.tags := by
    refine Json.fieldOr?_of_some (hfield (by simp [fieldNames]) rfl) ?_
    simpa using Json.listOf?_map (f := fun tag => tag) fun tag (_ : tag ∈ t.tags) => rfl
  have hkind : Json.optionalField? fields "type" TemplateKind.ofJson? = some (some t.kind) :=
    Json.optionalField?_of_some (hfield (by simp [fieldNames]) rfl) t.kind.ofJson?_toJson
      (by cases t.kind <;> rfl)
  have hextra : extraFields? fields = some t.extra := extraFields?_toJson h
  change ofJson? (.obj fields) = some t.clearAbsent
  simp [ofJson?, hid, hname, hcontent, hselections, htags, hkind, hextra, Json.string?,
    clearAbsent]

end Template

/-! ## Libraries -/

namespace Library

/-- The library with nothing marked as absent. -/
def clearAbsent (l : Library) : Library :=
  { l with
    templates := l.templates.map Template.clearAbsent
    banks := l.banks.map fun _ => Bank.clearAbsent }

/-- A library is read back strictly, except that nothing is marked as absent. -/
theorem ofJson?_toJson {l : Library} (h : ∀ t ∈ l.templates, t.ExtraApart) :
    ofJson? l.toJson = some l.clearAbsent := by
  have hcategories : Json.mapOf? Category.ofJson? (Json.ofMap Category.toJson l.categories) =
      some l.categories := by
    simpa using Json.mapOf?_ofMap (f := fun c => c) fun e _ => Category.ofJson?_toJson e.2
  refine ofJson?_obj_eq_some_iff.2 ⟨?_, ?_, ?_, ?_⟩
  · exact Json.fieldOr?_of_some rfl (Json.listOf?_map fun t ht => Template.ofJson?_toJson (h t ht))
  · exact Json.fieldOr?_of_some rfl (Json.mapOf?_ofMap fun e _ => Bank.ofJson?_toJson e.2)
  · exact Json.fieldOr?_of_some rfl (Localized.mapOf?_toJson l.defaults)
  · exact Json.fieldOr?_of_some rfl hcategories

/-- **A library that is written is read back.** Where no extra field has the name of a field with a
meaning, lenient reading of what is written skips nothing and gives an equal library, all of it in
the same order, in which nothing is marked as absent. -/
theorem reads_back (l : Library) (h : ∀ t ∈ l.templates, t.ExtraApart) :
    ofJsonLenient l.toJson = l.clearAbsent ∧ withoutMalformed l.toJson = l.toJson :=
  ofJsonLenient_of_strict (ofJson?_toJson h)

/-- A template with fields of its own and a bank, both marked as incomplete. -/
theorem reads_back_of_extra :
    let extra : ExtraFields :=
      { members := [("author", .obj [("name", .str "me"), ("id", .int 1)])]
        normal := by simp [Json.Normal, Json.NormalMembers]
        readable := rfl }
    let template : Template :=
      { id := "t", name := .localized (.ofList [("en", "T"), ("cn", "")]), extra
        selections := .ofList [("mood-0", .plain "calm")], kind := .video
        absent := { content := true } }
    let bank : Bank := { options := [.plain "calm"], absent := { label := true } }
    let l : Library := { templates := [template], banks := .ofList [("mood", bank)] }
    (∀ t ∈ l.templates, t.ExtraApart) ∧
      ofJsonLenient l.toJson =
        { templates := [{ template with absent := {} }]
          banks := .ofList [("mood", { bank with absent := {} })] } ∧
      withoutMalformed l.toJson = l.toJson := by
  intro extra template bank l
  have hextra : ∀ t ∈ l.templates, t.ExtraApart := by
    rw [List.forall_mem_singleton]
    decide +kernel
  obtain ⟨hread, hskipped⟩ := reads_back l hextra
  exact ⟨hextra, hread, hskipped⟩

end Library

end Stencil

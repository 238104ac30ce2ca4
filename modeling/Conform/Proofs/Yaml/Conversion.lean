import Conform.Proofs.Outcome
import Conform.Proofs.Pointwise
import Conform.Proofs.Yaml.Parts
import Mathlib.Data.List.Nodup

/-!
What becomes of a YAML value as JSON: the same tree without its tags, or the first fault that is met
on the way through it. Faults are infinite numbers and those that are no number, keys that are no
text, number or boolean, and keys that another key of their mapping has the text of.
-/

namespace Conform

namespace Yaml

variable {value part key : Yaml} {items : List Yaml} {entries : List (Yaml × Yaml)}
  {path seen : List String} {document : Json} {fault : ConversionFault}

/-! The entries of a mapping by one equation for each case of the first. -/

section Equations

variable {text : String} {rest : List (Yaml × Yaml)}

theorem convertEntries_of_no_text (hkey : key.keyText? = none) :
    convertEntries path seen ((key, value) :: rest) = .error (.unsupportedKey path key) := by
  rw [convertEntries, hkey]
  rfl

theorem convertEntries_of_error (hkey : key.keyText? = some text)
    (hvalue : convert (propertyPath path text) value = .error fault) :
    convertEntries path seen ((key, value) :: rest) = .error fault := by
  rw [convertEntries]
  simp only [hkey, hvalue]
  rfl

theorem convertEntries_of_mem (hkey : key.keyText? = some text)
    (hvalue : convert (propertyPath path text) value = .ok document) (again : text ∈ seen) :
    convertEntries path seen ((key, value) :: rest) = .error (.repeatedKey path text) := by
  rw [convertEntries]
  simp only [hkey, hvalue, again, if_true]
  rfl

theorem convertEntries_of_notMem (hkey : key.keyText? = some text)
    (hvalue : convert (propertyPath path text) value = .ok document) (new : text ∉ seen) :
    convertEntries path seen ((key, value) :: rest) =
      (convertEntries path (text :: seen) rest).map ((text, document) :: ·) := by
  rw [convertEntries]
  simp only [hkey, hvalue, new, if_false]
  cases convertEntries path (text :: seen) rest <;> rfl

theorem convertItems_of_error {item : Yaml} {items : List Yaml} {i : Nat}
    (hitem : convert (elementPath path i) item = .error fault) :
    convertItems path i (item :: items) = .error fault := by
  rw [convertItems, hitem]
  rfl

theorem convertItems_of_ok {item : Yaml} {items : List Yaml} {i : Nat}
    (hitem : convert (elementPath path i) item = .ok document) :
    convertItems path i (item :: items) =
      (convertItems path (i + 1) items).map (document :: ·) := by
  rw [convertItems, hitem]
  cases convertItems path (i + 1) items <;> simp [bind, Except.bind] <;> rfl

end Equations

/-! Success. -/

theorem convertItems_eq_ok_iff {i : Nat} {documents : List Json}
    (each : ∀ item ∈ items, ∀ path document, convert path item = .ok document ↔
      item.Denotes document ∧ document.HasDistinctKeys) :
    convertItems path i items = .ok documents ↔
      List.Forall₂ Denotes items documents ∧ ∀ document ∈ documents, document.HasDistinctKeys := by
  induction items generalizing i documents with
  | nil =>
      rw [convertItems, List.forall₂_nil_left_iff]
      constructor
      · rintro ⟨⟩
        exact ⟨rfl, List.forall_mem_nil _⟩
      · rintro ⟨rfl, -⟩
        rfl
  | cons item rest ih =>
      obtain ⟨first, others⟩ := List.forall_mem_cons.mp each
      rw [convertItems]
      constructor
      · intro h
        obtain ⟨document, hdocument, h⟩ := exists_of_bind_eq_ok h
        obtain ⟨more, hmore, h⟩ := exists_of_bind_eq_ok h
        cases h
        obtain ⟨denotes, distinct⟩ := (first _ _).mp hdocument
        obtain ⟨denoteRest, distinctRest⟩ := (ih others).mp hmore
        exact ⟨.cons denotes denoteRest, List.forall_mem_cons.mpr ⟨distinct, distinctRest⟩⟩
      · rintro ⟨denote, distinct⟩
        obtain ⟨document, more, denotes, denoteRest, rfl⟩ := List.forall₂_cons_left_iff.mp denote
        obtain ⟨distinct, distinctRest⟩ := List.forall_mem_cons.mp distinct
        refine bind_eq_ok ((first _ _).mpr ⟨denotes, distinct⟩) ?_
        exact bind_eq_ok ((ih others).mpr ⟨denoteRest, distinctRest⟩) rfl

theorem convertEntries_eq_ok_iff {fields : List (String × Json)}
    (each : ∀ entry ∈ entries, ∀ path document, convert path entry.2 = .ok document ↔
      entry.2.Denotes document ∧ document.HasDistinctKeys) :
    convertEntries path seen entries = .ok fields ↔
      List.Forall₂ DenotesField entries fields ∧ (∀ field ∈ fields, field.2.HasDistinctKeys) ∧
      (fields.map (·.1)).Nodup ∧ ∀ field ∈ fields, field.1 ∉ seen := by
  induction entries generalizing seen fields with
  | nil =>
      rw [convertEntries, List.forall₂_nil_left_iff]
      constructor
      · rintro ⟨⟩
        simp
      · rintro ⟨rfl, -⟩
        rfl
  | cons entry rest ih =>
      obtain ⟨key, value⟩ := entry
      obtain ⟨first, others⟩ := List.forall_mem_cons.mp each
      rw [convertEntries]
      constructor
      · intro h
        cases hkey : key.keyText? with
        | none =>
            rw [hkey] at h
            cases h
        | some text =>
            simp only [hkey] at h
            obtain ⟨document, hdocument, h⟩ := exists_of_bind_eq_ok h
            by_cases again : text ∈ seen
            · rw [if_pos again] at h
              cases h
            · rw [if_neg again] at h
              obtain ⟨more, hmore, h⟩ := exists_of_bind_eq_ok h
              cases h
              obtain ⟨denotes, distinct⟩ := (first _ _).mp hdocument
              obtain ⟨denoteRest, distinctRest, nodup, new⟩ := (ih others).mp hmore
              refine ⟨.cons (.entry hkey denotes) denoteRest,
                List.forall_mem_cons.mpr ⟨distinct, distinctRest⟩,
                List.nodup_cons.mpr ⟨?_, nodup⟩, List.forall_mem_cons.mpr ⟨again, ?_⟩⟩
              · intro h
                obtain ⟨field, hfield, heq⟩ := List.mem_map.mp h
                exact new field hfield (heq ▸ List.mem_cons_self)
              · exact fun field hfield hseen => new field hfield (List.mem_cons_of_mem _ hseen)
      · rintro ⟨denote, distinct, nodup, new⟩
        obtain ⟨_, more, ⟨hkey, denotes⟩, denoteRest, rfl⟩ := List.forall₂_cons_left_iff.mp denote
        obtain ⟨distinct, distinctRest⟩ := List.forall_mem_cons.mp distinct
        obtain ⟨newHere, nodup⟩ := List.nodup_cons.mp nodup
        obtain ⟨unseen, unseenRest⟩ := List.forall_mem_cons.mp new
        simp only [hkey]
        refine bind_eq_ok ((first _ _).mpr ⟨denotes, distinct⟩) ?_
        rw [if_neg unseen]
        refine bind_eq_ok ((ih others).mpr ⟨denoteRest, distinctRest, nodup, ?_⟩) rfl
        intro other hother hseen
        rcases List.mem_cons.mp hseen with heq | hseen
        · exact newHere (List.mem_map.mpr ⟨other, hother, heq⟩)
        · exact unseenRest other hother hseen

private theorem ok_scalar_iff {scalar : Json} (denotes : value.Denotes scalar)
    (only : ∀ other, value.Denotes other → other = scalar) (distinct : scalar.HasDistinctKeys) :
    Except.ok (ε := ConversionFault) scalar = .ok document ↔
      value.Denotes document ∧ document.HasDistinctKeys := by
  constructor
  · rintro ⟨⟩
    exact ⟨denotes, distinct⟩
  · rintro ⟨h, -⟩
    rw [only document h]

/-- Converting gives the document that a value denotes, wherever the value stands, unless some
object in that document would have a key twice. -/
theorem convert_eq_ok_iff (value : Yaml) : ∀ path document, convert path value = .ok document ↔
    value.Denotes document ∧ document.HasDistinctKeys := by
  induction value using part_induction with
  | step value ih =>
      intro path document
      cases value with
      | null =>
          rw [convert]
          refine ok_scalar_iff .null ?_ (Json.hasDistinctKeys_of_no_part nofun nofun)
          rintro _ ⟨⟩
          rfl
      | bool b =>
          rw [convert]
          refine ok_scalar_iff (.bool b) ?_ (Json.hasDistinctKeys_of_no_part nofun nofun)
          rintro _ ⟨⟩
          rfl
      | number n =>
          cases n with
          | finite n =>
              rw [convert, YamlNumber.jsonNumber?_finite]
              refine ok_scalar_iff (.number n) ?_ (Json.hasDistinctKeys_of_no_part nofun nofun)
              rintro _ ⟨⟩
              rfl
          | infinity negative => exact iff_of_false nofun nofun
          | nan => exact iff_of_false nofun nofun
      | string s =>
          rw [convert]
          refine ok_scalar_iff (.string s) ?_ (Json.hasDistinctKeys_of_no_part nofun nofun)
          rintro _ ⟨⟩
          rfl
      | sequence items =>
          have below : ∀ {documents}, convertItems path 0 items = .ok documents ↔ _ :=
            convertItems_eq_ok_iff fun item hitem => ih item (.item hitem)
          rw [convert]
          constructor
          · intro h
            obtain ⟨documents, hdocuments, rfl⟩ := exists_of_map_eq_ok h
            obtain ⟨each, distinct⟩ := below.mp hdocuments
            exact ⟨.sequence each, Json.hasDistinctKeys_array_iff.mpr distinct⟩
          · rintro ⟨⟨⟩, distinct⟩
            rename_i documents each
            rw [below.mpr ⟨each, Json.hasDistinctKeys_array_iff.mp distinct⟩]
            rfl
      | mapping entries =>
          have below : ∀ {fields}, convertEntries path [] entries = .ok fields ↔ _ :=
            convertEntries_eq_ok_iff fun entry hentry => ih entry.2 (.field hentry)
          rw [convert]
          constructor
          · intro h
            obtain ⟨fields, hfields, rfl⟩ := exists_of_map_eq_ok h
            obtain ⟨each, distinct, nodup, -⟩ := below.mp hfields
            exact ⟨.mapping each, Json.hasDistinctKeys_object_iff.mpr ⟨nodup, distinct⟩⟩
          · rintro ⟨⟨⟩, distinct⟩
            rename_i fields each
            obtain ⟨nodup, distinct⟩ := Json.hasDistinctKeys_object_iff.mp distinct
            rw [below.mpr ⟨each, distinct, nodup, fun _ _ => List.not_mem_nil⟩]
            rfl
      | tagged tag content =>
          rw [convert, ih content (.content tag)]
          refine and_congr_left fun _ => ⟨.tagged tag, ?_⟩
          rintro ⟨⟩
          assumption

theorem keyTexts_of_forall₂ {fields : List (String × Json)}
    (each : List.Forall₂ DenotesField entries fields) : keyTexts entries = fields.map (·.1) := by
  induction each with
  | nil => rfl
  | cons first _ ih =>
      obtain ⟨htext, -⟩ := first
      rw [keyTexts_cons htext, ih, List.map_cons]

theorem exists_document_iff (value : Yaml) :
    (∃ document, value.Denotes document ∧ document.HasDistinctKeys) ↔ value.IsRepresentable := by
  induction value using part_induction with
  | step value ih =>
      have scalar : ∀ {document : Json}, value.Denotes document → document.HasDistinctKeys →
          value.IsRepresentable → ((∃ document, value.Denotes document ∧ document.HasDistinctKeys) ↔
            value.IsRepresentable) :=
        fun denotes distinct representable =>
          ⟨fun _ => representable, fun _ => ⟨_, denotes, distinct⟩⟩
      cases value with
      | null =>
          exact scalar .null (Json.hasDistinctKeys_of_no_part nofun nofun)
            (isRepresentable_of_no_part nofun (by simp) (by simp))
      | bool b =>
          exact scalar (.bool b) (Json.hasDistinctKeys_of_no_part nofun nofun)
            (isRepresentable_of_no_part nofun (by simp) (by simp))
      | number n =>
          rw [isRepresentable_number_iff]
          constructor
          · rintro ⟨_, ⟨⟩, -⟩
            exact ⟨_, rfl⟩
          · rintro ⟨n, rfl⟩
            exact ⟨_, .number n, Json.hasDistinctKeys_of_no_part nofun nofun⟩
      | string s =>
          exact scalar (.string s) (Json.hasDistinctKeys_of_no_part nofun nofun)
            (isRepresentable_of_no_part nofun (by simp) (by simp))
      | sequence items =>
          rw [isRepresentable_sequence_iff]
          constructor
          · rintro ⟨_, ⟨⟩, distinct⟩ item hitem
            rename_i documents each
            obtain ⟨document, hdocument, denotes⟩ := exists_right_of_forall₂ each hitem
            have distinct := Json.hasDistinctKeys_array_iff.mp distinct document hdocument
            exact (ih item (.item hitem)).mp ⟨document, denotes, distinct⟩
          · intro h
            obtain ⟨documents, each⟩ := exists_forall₂ fun item hitem =>
              (ih item (.item hitem)).mpr (h item hitem)
            refine ⟨.array documents, .sequence (each.imp fun _ _ h => h.1),
              Json.hasDistinctKeys_array_iff.mpr fun document hdocument => ?_⟩
            obtain ⟨_, -, -, distinct⟩ := exists_left_of_forall₂ each hdocument
            exact distinct
      | mapping entries =>
          rw [isRepresentable_mapping_iff]
          constructor
          · rintro ⟨_, ⟨⟩, distinct⟩
            rename_i fields each
            obtain ⟨nodup, distinct⟩ := Json.hasDistinctKeys_object_iff.mp distinct
            refine ⟨fun entry hentry => ?_, (keyTexts_of_forall₂ each).symm ▸ nodup⟩
            obtain ⟨field, hfield, ⟨htext, denotes⟩⟩ := exists_right_of_forall₂ each hentry
            exact ⟨exists_keyText?_iff.mp ⟨_, htext⟩,
              (ih _ (.field hentry)).mp ⟨_, denotes, distinct _ hfield⟩⟩
          · rintro ⟨each, distinct⟩
            have denote : ∀ entry ∈ entries, ∃ field, DenotesField entry field ∧
                field.2.HasDistinctKeys := by
              rintro ⟨key, value⟩ hentry
              obtain ⟨simple, representable⟩ := each _ hentry
              obtain ⟨text, htext⟩ := exists_keyText?_iff.mpr simple
              obtain ⟨document, denotes, distinct⟩ := (ih value (.field hentry)).mpr representable
              exact ⟨(text, document), .entry htext denotes, distinct⟩
            obtain ⟨fields, hfields⟩ := exists_forall₂ denote
            have denoteAll := hfields.imp fun _ _ h => h.1
            refine ⟨.object fields, .mapping denoteAll, Json.hasDistinctKeys_object_iff.mpr
              ⟨keyTexts_of_forall₂ denoteAll ▸ distinct, fun field hfield => ?_⟩⟩
            obtain ⟨_, -, -, distinct⟩ := exists_left_of_forall₂ hfields hfield
            exact distinct
      | tagged tag content =>
          rw [isRepresentable_tagged_iff, ← ih content (.content tag)]
          refine exists_congr fun document => and_congr_left fun _ => ⟨?_, .tagged tag⟩
          rintro ⟨⟩
          assumption

theorem exists_convert_iff : (∃ document, convert path value = .ok document) ↔
    value.IsRepresentable := by
  simp only [convert_eq_ok_iff, exists_document_iff]

/-! Failure. -/

theorem not_isRepresentable_of_convert (failed : convert path value = .error fault) :
    ¬ value.IsRepresentable := by
  rw [← exists_convert_iff, failed]
  rintro ⟨document, h⟩
  cases h

mutual

/-- The first fault on the way through a value at a path: everything before it is without faults. -/
inductive FirstFault : List String → Yaml → ConversionFault → Prop
  | notFinite {path : List String} {n : YamlNumber} (h : ¬ n.IsFinite) :
      FirstFault path (.number n) (.notFinite path n)
  | item {path : List String} {before after : List Yaml} {item : Yaml} {fault : ConversionFault}
      (earlier : (Yaml.sequence before).IsRepresentable)
      (first : FirstFault (elementPath path before.length) item fault) :
      FirstFault path (.sequence (before ++ item :: after)) fault
  | entry {path : List String} {before after : List (Yaml × Yaml)} {entry : Yaml × Yaml}
      {fault : ConversionFault} (earlier : (Yaml.mapping before).IsRepresentable)
      (first : FirstFaultOfEntry path before entry fault) :
      FirstFault path (.mapping (before ++ entry :: after)) fault
  | content {path : List String} {tag : String} {content : Yaml} {fault : ConversionFault}
      (first : FirstFault path content fault) : FirstFault path (.tagged tag content) fault

/-- The first fault in an entry of a mapping at a path, after other entries: the key comes first,
then the value, and then the keys before. -/
inductive FirstFaultOfEntry :
    List String → List (Yaml × Yaml) → Yaml × Yaml → ConversionFault → Prop
  | unsupportedKey {path : List String} {before : List (Yaml × Yaml)} {key value : Yaml}
      (h : ¬ key.IsSimpleKey) :
      FirstFaultOfEntry path before (key, value) (.unsupportedKey path key)
  | value {path : List String} {before : List (Yaml × Yaml)} {key value : Yaml} {text : String}
      {fault : ConversionFault} (htext : key.keyText? = some text)
      (first : FirstFault (propertyPath path text) value fault) :
      FirstFaultOfEntry path before (key, value) fault
  | repeatedKey {path : List String} {before : List (Yaml × Yaml)} {key value : Yaml}
      {text : String} (htext : key.keyText? = some text) (representable : value.IsRepresentable)
      (again : text ∈ keyTexts before) :
      FirstFaultOfEntry path before (key, value) (.repeatedKey path text)

end

private theorem exists_append_cons_iff {α : Type} {first : α} {rest : List α}
    {p : List α → α → Prop} :
    (∃ before x after, first :: rest = before ++ x :: after ∧ p before x) ↔
      p [] first ∨ ∃ before x after, rest = before ++ x :: after ∧ p (first :: before) x := by
  constructor
  · rintro ⟨before, x, after, heq, h⟩
    cases before with
    | nil =>
        obtain ⟨rfl, rfl⟩ := List.cons_eq_cons.mp heq
        exact .inl h
    | cons other before =>
        obtain ⟨rfl, hrest⟩ := List.cons_eq_cons.mp heq
        exact .inr ⟨before, x, after, hrest, h⟩
  · rintro (h | ⟨before, x, after, rfl, h⟩)
    · exact ⟨[], first, rest, rfl, h⟩
    · exact ⟨first :: before, x, after, rfl, h⟩

theorem convertItems_eq_error_iff {i : Nat}
    (each : ∀ item ∈ items, ∀ path fault, convert path item = .error fault ↔
      FirstFault path item fault) :
    convertItems path i items = .error fault ↔
      ∃ before item after, items = before ++ item :: after ∧
        (∀ earlier ∈ before, earlier.IsRepresentable) ∧
        FirstFault (elementPath path (i + before.length)) item fault := by
  induction items generalizing i with
  | nil => simp [convertItems, pure, Except.pure]
  | cons item rest ih =>
      obtain ⟨here, others⟩ := List.forall_mem_cons.mp each
      rw [exists_append_cons_iff (p := fun before item =>
        (∀ earlier ∈ before, earlier.IsRepresentable) ∧
          FirstFault (elementPath path (i + before.length)) item fault), ← here]
      simp only [List.length_nil, Nat.add_zero, List.not_mem_nil, false_implies, implies_true,
        true_and, List.forall_mem_cons, List.length_cons]
      cases hitem : convert (elementPath path i) item with
      | error failed =>
          have refused := not_isRepresentable_of_convert hitem
          rw [convertItems_of_error hitem, Except.error.injEq, Except.error.injEq]
          refine ⟨.inl, fun h => h.resolve_right ?_⟩
          rintro ⟨_, _, _, -, ⟨fine, -⟩, -⟩
          exact refused fine
      | ok document =>
          have fine := exists_convert_iff.mp ⟨document, hitem⟩
          rw [convertItems_of_ok hitem, map_eq_error_iff, ih others]
          simp only [fine, true_and, reduceCtorEq, false_or, Nat.add_assoc, Nat.add_comm 1]

theorem keyTexts_append (before after : List (Yaml × Yaml)) :
    keyTexts (before ++ after) = keyTexts before ++ keyTexts after :=
  List.filterMap_append

theorem IsRepresentable.entry {before after : List (Yaml × Yaml)}
    (h : (Yaml.mapping (before ++ (key, value) :: after)).IsRepresentable) :
    key.IsSimpleKey ∧ value.IsRepresentable ∧
      ∀ text, key.keyText? = some text → text ∉ keyTexts before := by
  obtain ⟨each, distinct⟩ := isRepresentable_mapping_iff.mp h
  obtain ⟨simple, representable⟩ := each (key, value) (by simp)
  refine ⟨simple, representable, fun text htext again => ?_⟩
  rw [keyTexts_append, keyTexts_cons htext] at distinct
  exact (List.nodup_append.mp distinct).2.2 text again text List.mem_cons_self rfl

theorem IsRepresentable.append_entry {before : List (Yaml × Yaml)} {text : String}
    (h : (Yaml.mapping before).IsRepresentable) (htext : key.keyText? = some text)
    (representable : value.IsRepresentable) (new : text ∉ keyTexts before) :
    (Yaml.mapping (before ++ [(key, value)])).IsRepresentable := by
  obtain ⟨each, distinct⟩ := isRepresentable_mapping_iff.mp h
  refine isRepresentable_mapping_iff.mpr ⟨List.forall_mem_append.mpr ⟨each, ?_⟩, ?_⟩
  · exact List.forall_mem_singleton.mpr ⟨exists_keyText?_iff.mp ⟨text, htext⟩, representable⟩
  · rw [keyTexts_append, keyTexts_cons htext]
    exact List.nodup_append_comm.mp (List.nodup_cons.mpr ⟨new, distinct⟩)

theorem firstFaultOfEntry_iff {before : List (Yaml × Yaml)} {text : String}
    (htext : key.keyText? = some text) :
    FirstFaultOfEntry path before (key, value) fault ↔
      FirstFault (propertyPath path text) value fault ∨
        value.IsRepresentable ∧ text ∈ keyTexts before ∧ fault = .repeatedKey path text := by
  have same : ∀ {other}, key.keyText? = some other → other = text :=
    fun h => Option.some.inj (h.symm.trans htext)
  constructor
  · rintro (complex | ⟨h, first⟩ | ⟨h, representable, again⟩)
    · exact absurd (exists_keyText?_iff.mp ⟨text, htext⟩) complex
    · exact .inl (same h ▸ first)
    · cases same h
      exact .inr ⟨representable, again, rfl⟩
  · rintro (first | ⟨representable, again, rfl⟩)
    · exact .value htext first
    · exact .repeatedKey htext representable again

theorem convertEntries_eq_error_iff {done : List (Yaml × Yaml)}
    (each : ∀ entry ∈ entries, ∀ path fault, convert path entry.2 = .error fault ↔
      FirstFault path entry.2 fault)
    (representable : (Yaml.mapping done).IsRepresentable)
    (same : ∀ text, text ∈ seen ↔ text ∈ keyTexts done) :
    convertEntries path seen entries = .error fault ↔
      ∃ before entry after, entries = before ++ entry :: after ∧
        (Yaml.mapping (done ++ before)).IsRepresentable ∧
        FirstFaultOfEntry path (done ++ before) entry fault := by
  induction entries generalizing seen done with
  | nil => simp [convertEntries, pure, Except.pure]
  | cons entry rest ih =>
      obtain ⟨key, value⟩ := entry
      obtain ⟨here, others⟩ := List.forall_mem_cons.mp each
      rw [exists_append_cons_iff (p := fun before entry =>
        (Yaml.mapping (done ++ before)).IsRepresentable ∧
          FirstFaultOfEntry path (done ++ before) entry fault), List.append_nil]
      simp only [representable, true_and]
      cases hkey : key.keyText? with
      | none =>
          have complex := keyText?_eq_none_iff.mp hkey
          rw [convertEntries_of_no_text hkey]
          constructor
          · rintro ⟨⟩
            exact .inl (.unsupportedKey complex)
          · rintro (first | ⟨_, _, _, -, fine, -⟩)
            · cases first with
              | unsupportedKey => rfl
              | value htext _ => cases hkey.symm.trans htext
              | repeatedKey htext _ _ => cases hkey.symm.trans htext
            · exact absurd fine.entry.1 complex
      | some text =>
          rw [firstFaultOfEntry_iff hkey, ← here]
          cases hvalue : convert (propertyPath path text) value with
          | error failed =>
              have refused := not_isRepresentable_of_convert hvalue
              rw [convertEntries_of_error hkey hvalue, Except.error.injEq, Except.error.injEq]
              simp only [refused, false_and, or_false]
              refine ⟨.inl, fun h => h.resolve_right ?_⟩
              rintro ⟨_, _, _, -, fine, -⟩
              exact refused fine.entry.2.1
          | ok document =>
              have fineValue := exists_convert_iff.mp ⟨document, hvalue⟩
              simp only [reduceCtorEq, fineValue, true_and, false_or, ← same]
              by_cases again : text ∈ seen
              · rw [convertEntries_of_mem hkey hvalue again, Except.error.injEq, eq_comm]
                simp only [again, true_and]
                refine ⟨.inl, fun h => h.resolve_right ?_⟩
                rintro ⟨_, _, _, -, fine, -⟩
                exact fine.entry.2.2 text hkey ((same text).mp again)
              · have sameNext : ∀ other, other ∈ text :: seen ↔
                    other ∈ keyTexts (done ++ [(key, value)]) := by
                  intro other
                  rw [keyTexts_append, keyTexts_cons hkey, List.mem_cons, List.mem_append, same]
                  simp [keyTexts, or_comm]
                have next := representable.append_entry hkey fineValue (mt (same text).mpr again)
                rw [convertEntries_of_notMem hkey hvalue again, map_eq_error_iff,
                  ih others next sameNext]
                simp only [again, false_and, false_or, List.append_assoc, List.singleton_append]

theorem convert_number_eq_error_iff {n : YamlNumber} :
    convert path (.number n) = .error fault ↔ FirstFault path (.number n) fault := by
  by_cases finite : n.IsFinite
  · obtain ⟨number, rfl⟩ := finite
    rw [convert, YamlNumber.jsonNumber?_finite]
    refine iff_of_false nofun ?_
    rintro (h | h)
    exact h ⟨number, rfl⟩
  · have failed : convert path (.number n) = .error (.notFinite path n) := by
      cases n with
      | finite number => exact absurd ⟨number, rfl⟩ finite
      | infinity negative => rfl
      | nan => rfl
    rw [failed, Except.error.injEq]
    constructor
    · rintro rfl
      exact .notFinite finite
    · rintro ⟨⟩
      rfl

theorem convert_eq_error_iff (value : Yaml) : ∀ path fault, convert path value = .error fault ↔
    FirstFault path value fault := by
  induction value using part_induction with
  | step value ih =>
      intro path fault
      cases value with
      | null =>
          rw [convert]
          exact iff_of_false nofun nofun
      | bool b =>
          rw [convert]
          exact iff_of_false nofun nofun
      | number n => exact convert_number_eq_error_iff
      | string s =>
          rw [convert]
          exact iff_of_false nofun nofun
      | sequence items =>
          have below : convertItems path 0 items = .error fault ↔ _ :=
            convertItems_eq_error_iff fun item hitem => ih item (.item hitem)
          rw [convert]
          change Except.map _ _ = _ ↔ _
          simp only [map_eq_error_iff, below, Nat.zero_add, ← isRepresentable_sequence_iff]
          constructor
          · rintro ⟨before, item, after, rfl, earlier, first⟩
            exact .item earlier first
          · rintro (_ | ⟨earlier, first⟩)
            exact ⟨_, _, _, rfl, earlier, first⟩
      | mapping entries =>
          have empty : (Yaml.mapping []).IsRepresentable := by
            simp [isRepresentable_mapping_iff, keyTexts]
          have below : convertEntries path [] entries = .error fault ↔ _ :=
            convertEntries_eq_error_iff
              (fun entry hentry => ih entry.2 (.field hentry)) empty fun _ => Iff.rfl
          rw [convert]
          change Except.map _ _ = _ ↔ _
          simp only [map_eq_error_iff, below, List.nil_append]
          constructor
          · rintro ⟨before, entry, after, rfl, earlier, first⟩
            exact .entry earlier first
          · rintro (_ | _ | ⟨earlier, first⟩)
            exact ⟨_, _, _, rfl, earlier, first⟩
      | tagged tag content =>
          rw [convert, ih content (.content tag)]
          refine ⟨.content, ?_⟩
          rintro ⟨⟩
          assumption

/-! Where a fault is. -/

end Yaml

/-- What a fault says of the value at a path: the number there has no JSON form, or the mapping
there has the key, or more than one key of the text. -/
inductive ConversionFault.Concerns : ConversionFault → List String → Yaml → Prop
  | notFinite {path : List String} {n : YamlNumber} (h : ¬ n.IsFinite) :
      Concerns (.notFinite path n) path (.number n)
  | unsupportedKey {path : List String} {entries : List (Yaml × Yaml)} {entry : Yaml × Yaml}
      (hentry : entry ∈ entries) (h : ¬ entry.1.IsSimpleKey) :
      Concerns (.unsupportedKey path entry.1) path (.mapping entries)
  | repeatedKey {path : List String} {entries : List (Yaml × Yaml)} {text : String}
      (h : 1 < (Yaml.keyTexts entries).count text) :
      Concerns (.repeatedKey path text) path (.mapping entries)

theorem ConversionFault.Concerns.exists_message {fault : ConversionFault} {path : List String}
    {part : Yaml} (h : fault.Concerns path part) :
    ∃ rest, fault.message = ".".intercalate path ++ ": " ++ rest := by
  cases h with
  | @notFinite _ n h => exact ⟨n.text ++ " has no JSON representation", String.append_assoc⟩
  | @unsupportedKey _ _ entry hentry h =>
      refine ⟨"unsupported key " ++ entry.1.outline, ?_⟩
      change ".".intercalate path ++ (": " ++ "unsupported key ") ++ entry.1.outline = _
      simp only [String.append_assoc]
  | @repeatedKey _ _ text h =>
      refine ⟨"key '" ++ text ++ "' appears more than once", ?_⟩
      change ".".intercalate path ++ (": " ++ "key '") ++ text ++ "' appears more than once" = _
      simp only [String.append_assoc]

namespace Yaml

mutual

theorem FirstFault.exists_concerns {base path : List String} {whole value : Yaml}
    {fault : ConversionFault} (first : FirstFault path value fault)
    (here : StandsAt base whole path value) :
    ∃ location part, StandsAt base whole location part ∧ fault.Concerns location part :=
  match first with
  | .notFinite h => ⟨_, _, here, .notFinite h⟩
  | .item _ first => first.exists_concerns (here.item (by simp))
  | .entry _ first => first.exists_concerns here
  | .content first => first.exists_concerns here.content

theorem FirstFaultOfEntry.exists_concerns {base path : List String} {whole : Yaml}
    {before after : List (Yaml × Yaml)} {entry : Yaml × Yaml} {fault : ConversionFault}
    (first : FirstFaultOfEntry path before entry fault)
    (here : StandsAt base whole path (.mapping (before ++ entry :: after))) :
    ∃ location part, StandsAt base whole location part ∧ fault.Concerns location part :=
  match first with
  | .unsupportedKey h => ⟨_, _, here, .unsupportedKey (by simp) h⟩
  | .value htext first => first.exists_concerns (here.field (by simp) htext)
  | .repeatedKey htext _ again => by
      refine ⟨_, _, here, .repeatedKey ?_⟩
      have : 0 < (keyTexts before).count _ := List.count_pos_iff.mpr again
      rw [keyTexts_append, keyTexts_cons htext, List.count_append, List.count_cons_self]
      omega

end

theorem denotes_ofJson (document : Json) : (ofJson document).Denotes document := by
  induction document using Json.part_induction with
  | step document ih =>
      cases document with
      | null => exact .null
      | bool b => exact .bool b
      | number n => exact .number n
      | string s => exact .string s
      | array items =>
          rw [ofJson_array]
          apply Denotes.sequence
          rw [List.forall₂_map_left_iff, List.forall₂_same]
          exact fun item hitem => ih item (.item hitem)
      | object entries =>
          rw [ofJson_object]
          apply Denotes.mapping
          rw [List.forall₂_map_left_iff, List.forall₂_same]
          exact fun entry hentry => .entry rfl (ih entry.2 (.field hentry))

/-- Converting loses nothing but tags, or else it is refused. It yields a document exactly if there
is no fault in the value, and then the one that the value denotes. Otherwise it yields the first
fault on the way through the value; its message begins with the place in the value that it concerns.
A JSON value that is taken for YAML comes back, if none of its objects has a key twice. -/
theorem lossless_or_refused (value : Yaml) :
    ((∃ document, value.toJson = .ok document) ↔ value.IsRepresentable) ∧
    (∀ document, value.toJson = .ok document ↔
      value.Denotes document ∧ document.HasDistinctKeys) ∧
    (∀ fault, value.toJson = .error fault ↔ FirstFault rootPath value fault) ∧
    (∀ fault, value.toJson = .error fault → ∃ path part rest,
      StandsAt rootPath value path part ∧ fault.Concerns path part ∧
        fault.message = ".".intercalate path ++ ": " ++ rest) ∧
    ∀ document : Json, (ofJson document).toJson = .ok document ↔ document.HasDistinctKeys := by
  refine ⟨exists_convert_iff, convert_eq_ok_iff value rootPath, convert_eq_error_iff value rootPath,
    fun fault failed => ?_, fun document => ?_⟩
  · have first := (convert_eq_error_iff value rootPath fault).mp failed
    obtain ⟨path, part, stands, concerns⟩ := first.exists_concerns .root
    obtain ⟨rest, message⟩ := concerns.exists_message
    exact ⟨path, part, rest, stands, concerns, message⟩
  · rw [toJson, convert_eq_ok_iff]
    exact and_iff_right (denotes_ofJson document)

example :
    let flags := Yaml.mapping [(.bool true, .null), (.string "true", .null)]
    (Yaml.mapping [(.string "a", .sequence [.null, .tagged "!flags" flags])]).toJson.mapError
      ConversionFault.message = .error "Base.a.[1]: key 'true' appears more than once" := by
  cbv

end Yaml
end Conform

import PeekLock.Json.Document
import PeekLock.Proofs.Json.Values

/-! # Which documents can be written

A document may refuse to be written, by a part of it or by a key that is no text, at any depth
(`Document.Refuses`).  It then has neither a text nor a value (`Document.fails_iff`).  One
that was made of a value has no such part, is written as the value is
(`Document.encode_ofValue`), and is made that value again (`Document.value_ofValue`).
-/

namespace PeekLock.Document

/-! ## Documents of values -/

mutual

theorem chars_ofValue (v : Json) : (ofValue v).chars = .ok v.chars := by
  cases v with
  | null | integer _ | real _ | text _ => rfl
  | bool b => cases b <;> rfl
  | array items =>
    simp only [ofValue, chars, itemsChars_ofItems items, Json.chars]
    rfl
  | object members =>
    simp only [ofValue, chars, fieldsChars_ofMembers members, Json.chars]
    rfl

theorem itemsChars_ofItems (items : List Json) :
    itemsChars (ofItems items) = .ok (Json.itemsChars items) := by
  cases items with
  | nil => rfl
  | cons item rest =>
    simp only [ofItems, itemsChars, chars_ofValue item, itemsChars_ofItems rest, Json.itemsChars]
    rfl

theorem fieldsChars_ofMembers (members : List (String × Json)) :
    fieldsChars (ofMembers members) = .ok (Json.membersChars members) := by
  cases members with
  | nil => rfl
  | cons m rest =>
    obtain ⟨key, v⟩ := m
    simp only [ofMembers, fieldsChars, chars_ofValue v, fieldsChars_ofMembers rest,
      Json.membersChars]
    rfl

end

/-- A value can be written. -/
theorem encode_ofValue (v : Json) : (ofValue v).encode = .ok v.octets := by
  rw [encode, chars_ofValue]
  rfl

theorem itemsValue_ofItems {items : List Json}
    (values : ∀ item ∈ items, (ofValue item).value = .ok item) :
    itemsValue (ofItems items) = .ok items := by
  induction items with
  | nil => rfl
  | cons item rest ih =>
    have first := values item (List.mem_cons_self ..)
    have others := ih fun item' member => values item' (List.mem_cons_of_mem _ member)
    simp only [ofItems, itemsValue, first, others]
    rfl

theorem fieldsValue_ofMembers {members : List (String × Json)}
    (values : ∀ m ∈ members, (ofValue m.2).value = .ok m.2) :
    fieldsValue (ofMembers members) = .ok members := by
  induction members with
  | nil => rfl
  | cons m rest ih =>
    have first := values m (List.mem_cons_self ..)
    have others := ih fun m' member => values m' (List.mem_cons_of_mem _ member)
    simp only [ofMembers, fieldsValue, first, others]
    rfl

/-- A value whose keys stand in order is its own value. -/
theorem value_ofValue {depth : Nat} {v : Json} (fits : v.Fits depth) :
    (ofValue v).value = .ok v := by
  induction fits with
  | null | bool _ | integer _ _ | text _ => rfl
  | array _ ih =>
    simp only [ofValue, value, itemsValue_ofItems ih]
    rfl
  | object ascend _ ih =>
    simp only [ofValue, value, fieldsValue_ofMembers ih]
    exact congrArg (fun members => Except.ok (Json.object members)) (Keyed.ofList_eq_self ascend)

/-! ## Documents that refuse -/

/-- Some part of a document refuses to be written, or some key in it is no text. -/
inductive Refuses : Document → Prop where
  | refused (reason : String) : Refuses (.refused reason)
  | item {items : List Document} {item : Document} :
      item ∈ items → Refuses item → Refuses (.list items)
  | field {fields : List (String × Document)} {field : String × Document} :
      field ∈ fields → Refuses field.2 → Refuses (.record fields)
  | key {entries : List (Option String × Document)} {entry : Option String × Document} :
      entry ∈ entries → entry.1 = none → Refuses (.map entries)
  | entry {entries : List (Option String × Document)} {entry : Option String × Document} :
      entry ∈ entries → Refuses entry.2 → Refuses (.map entries)

theorem refuses_list {items : List Document} :
    (list items).Refuses ↔ ∃ item ∈ items, item.Refuses := by
  constructor
  · intro h
    cases h with
    | item member refuses => exact ⟨_, member, refuses⟩
  · rintro ⟨_, member, refuses⟩
    exact .item member refuses

theorem refuses_record {fields : List (String × Document)} :
    (record fields).Refuses ↔ ∃ field ∈ fields, field.2.Refuses := by
  constructor
  · intro h
    cases h with
    | field member refuses => exact ⟨_, member, refuses⟩
  · rintro ⟨_, member, refuses⟩
    exact .field member refuses

theorem refuses_map {entries : List (Option String × Document)} :
    (map entries).Refuses ↔ ∃ entry ∈ entries, entry.1 = none ∨ entry.2.Refuses := by
  constructor
  · intro h
    cases h with
    | key member noText => exact ⟨_, member, .inl noText⟩
    | entry member refuses => exact ⟨_, member, .inr refuses⟩
  · rintro ⟨_, member, noText | refuses⟩
    · exact .key member noText
    · exact .entry member refuses

def Fails {α : Type} (result : Except Json.Failure α) : Prop :=
  ∃ failure, result = .error failure

@[simp] theorem not_fails_ok {α : Type} (v : α) : ¬ Fails (.ok v) :=
  fun ⟨_, fails⟩ => nomatch fails

/-- Two steps fail if either does. -/
theorem fails_steps {α β γ : Type} (x : Except Json.Failure α) (y : Except Json.Failure β)
    (join : α → β → γ) :
    Fails (x >>= fun head => y >>= fun tail => pure (join head tail)) ↔ Fails x ∨ Fails y := by
  cases x with
  | error failure => exact ⟨fun _ => .inl ⟨failure, rfl⟩, fun _ => ⟨failure, rfl⟩⟩
  | ok head =>
    cases y with
    | error failure => exact ⟨fun _ => .inr ⟨failure, rfl⟩, fun _ => ⟨failure, rfl⟩⟩
    | ok tail => simp [bind, Except.bind, pure, Except.pure]

theorem fails_last {α β : Type} (x : Except Json.Failure α) (f : α → β) :
    Fails (x >>= fun v => pure (f v)) ↔ Fails x := by
  cases x with
  | error failure => exact ⟨fun _ => ⟨failure, rfl⟩, fun _ => ⟨failure, rfl⟩⟩
  | ok v => simp [bind, Except.bind, pure, Except.pure]

mutual

theorem fails_iff (d : Document) :
    (Fails d.chars ↔ d.Refuses) ∧ (Fails d.value ↔ d.Refuses) := by
  cases d with
  | null | bool b | integer n | real x | text s =>
    refine ⟨⟨fun fails => absurd fails (not_fails_ok _), fun refuses => ?_⟩,
      ⟨fun fails => absurd fails (not_fails_ok _), fun refuses => ?_⟩⟩ <;> cases refuses
  | list items =>
    simp only [chars, value, fails_last, fails_items_iff items, refuses_list, and_self]
  | record fields =>
    simp only [chars, value, fails_last, fails_fields_iff fields, refuses_record, and_self]
  | map entries =>
    simp only [chars, value, fails_last, fails_entries_iff entries, refuses_map, and_self]
  | refused reason =>
    have refuses : (Document.refused reason).Refuses := .refused reason
    exact ⟨⟨fun _ => refuses, fun _ => ⟨_, rfl⟩⟩, ⟨fun _ => refuses, fun _ => ⟨_, rfl⟩⟩⟩

theorem fails_items_iff (items : List Document) :
    (Fails (itemsChars items) ↔ ∃ item ∈ items, item.Refuses) ∧
      (Fails (itemsValue items) ↔ ∃ item ∈ items, item.Refuses) := by
  cases items with
  | nil => simp [itemsChars, itemsValue]
  | cons item rest =>
    have first := fails_iff item
    have others := fails_items_iff rest
    simp only [itemsChars, itemsValue, fails_steps, first, others, List.exists_mem_cons_iff,
      and_self]

theorem fails_fields_iff (fields : List (String × Document)) :
    (Fails (fieldsChars fields) ↔ ∃ field ∈ fields, field.2.Refuses) ∧
      (Fails (fieldsValue fields) ↔ ∃ field ∈ fields, field.2.Refuses) := by
  cases fields with
  | nil => simp [fieldsChars, fieldsValue]
  | cons field rest =>
    have first := fails_iff field.2
    have others := fails_fields_iff rest
    simp only [fieldsChars, fieldsValue, fails_steps, first, others, List.exists_mem_cons_iff,
      and_self]

theorem fails_entries_iff (entries : List (Option String × Document)) :
    (Fails (entriesChars entries) ↔ ∃ entry ∈ entries, entry.1 = none ∨ entry.2.Refuses) ∧
      (Fails (entriesValue entries) ↔ ∃ entry ∈ entries, entry.1 = none ∨ entry.2.Refuses) := by
  cases entries with
  | nil => simp [entriesChars, entriesValue]
  | cons entry rest =>
    obtain ⟨key, v⟩ := entry
    cases key with
    | none =>
      have noText : ∃ entry ∈ (none, v) :: rest, entry.1 = none ∨ entry.2.Refuses :=
        ⟨_, List.mem_cons_self .., .inl rfl⟩
      exact ⟨⟨fun _ => noText, fun _ => ⟨_, rfl⟩⟩, ⟨fun _ => noText, fun _ => ⟨_, rfl⟩⟩⟩
    | some key =>
      have first := fails_iff v
      have others := fails_entries_iff rest
      simp only [entriesChars, entriesValue, fails_steps, first, others,
        List.exists_mem_cons_iff, reduceCtorEq, false_or, and_self]

end

end PeekLock.Document

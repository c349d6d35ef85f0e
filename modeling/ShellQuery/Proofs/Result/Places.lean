import ShellQuery.Proofs.Bson.Readable
import ShellQuery.Proofs.Result.Normalize

/-!
# Places in results and documents

A place is a path of steps into a value: under a name, or to an item of a list.  A scope stands in
its program text under the name that it has in a result, so that a document and its result have the
same places.
-/

namespace ShellQuery

/-- A step into a value. -/
inductive Step where
  | field (name : String)
  | item (index : Nat)
deriving DecidableEq, Repr

/-- A path of steps. -/
abbrev Place := List Step

/-- The value at a place of a result. -/
inductive Json.At : Json → Place → Json → Prop where
  | here (v : Json) : At v [] v
  | field {entries : List (String × Json)} {name : String} {place : Place} {v w : Json}
      (hmem : (name, v) ∈ entries) (h : At v place w) : At (.obj entries) (.field name :: place) w
  | item {items : List Json} {index : Nat} {place : Place} {v w : Json}
      (hitem : items[index]? = some v) (h : At v place w) :
      At (.arr items) (.item index :: place) w

/-- No object inside a value without the names has one of them. -/
theorem Json.Unmarked.names_of_at {v : Json} {place : Place} {entries : Entries Json}
    (h : v.Unmarked) (hat : v.At place (.obj entries)) :
    "$oid" ∉ Entries.keys entries ∧ "_id" ∉ Entries.keys entries := by
  generalize hw : Json.obj entries = w at hat
  induction hat with
  | here v =>
    subst hw
    cases h with
    | obj hoid hid _ => exact ⟨hoid, hid⟩
  | field hmem _ ih =>
    cases h with
    | obj _ _ h => exact ih (h _ hmem) hw
  | item hitem _ ih =>
    cases h with
    | arr h => exact ih (h _ (List.mem_of_getElem? hitem)) hw

namespace Bson

/-- The value at a place of a stored value. -/
inductive At : Bson → Place → Bson → Prop where
  | here (b : Bson) : At b [] b
  | field {fields : List (String × Bson)} {name : String} {place : Place} {b w : Bson}
      (hmem : (name, b) ∈ fields) (h : At b place w) :
      At (.document fields) (.field name :: place) w
  | item {items : List Bson} {index : Nat} {place : Place} {b w : Bson}
      (hitem : items[index]? = some b) (h : At b place w) :
      At (.array items) (.item index :: place) w
  | scope {text : String} {scope : List (String × Bson)} {place : Place} {w : Bson}
      (h : At (.document scope) place w) :
      At (.codeWithScope text scope) (.field "$scope" :: place) w

/-! ## Parts of readable values -/

/-- What stands at a place of a readable value: a readable value, or a scope. -/
inductive Part : Bson → Prop where
  | value {b : Bson} (h : b.Readable) : Part b
  | scope {fields : Document} (h : ReadableMembers fields) : Part (.document fields)

theorem Part.members {fields : Document} (h : Part (.document fields)) :
    ReadableMembers fields := by
  cases h with
  | value h => exact h.members
  | scope h => exact h

/-- Only documents are parts without being readable. -/
theorem Part.readable {b : Bson} (h : b.Part) (hb : ∀ fields, b ≠ .document fields) :
    b.Readable := by
  cases h with
  | value h => exact h
  | scope h => exact absurd rfl (hb _)

/-- A part is a value without others inside, a list, a document or program text with a scope. -/
theorem Part.shape {b : Bson} (h : b.Part) :
    b.IsLeaf ∨ (∃ items, b = .array items ∧ ∀ v ∈ items, v.Readable) ∨
      (∃ fields, b = .document fields ∧ ReadableMembers fields) ∨
      ∃ text scope, b = .codeWithScope text scope ∧ ReadableMembers scope := by
  cases h with
  | scope h => exact .inr (.inr (.inl ⟨_, rfl, h⟩))
  | value h =>
    cases h with
    | leaf h => exact .inl h
    | array h => exact .inr (.inl ⟨_, rfl, h⟩)
    | document hnodup _ h => exact .inr (.inr (.inl ⟨_, rfl, hnodup, h⟩))
    | codeWithScope hnodup h => exact .inr (.inr (.inr ⟨_, _, rfl, hnodup, h⟩))

variable {b w w' : Bson} {place : Place} {fields : Document}

/-- A place behind a place. -/
theorem At.append (h : b.At place w) {rest : Place} (h' : w.At rest w') :
    b.At (place ++ rest) w' := by
  induction h with
  | here => exact h'
  | field hmem _ ih => exact .field hmem (ih h')
  | item hitem _ ih => exact .item hitem (ih h')
  | scope _ ih => exact .scope (ih h')

theorem At.part (h : b.At place w) (hb : b.Part) : w.Part := by
  induction h with
  | here => exact hb
  | field hmem _ ih => exact ih (.value (hb.members.values _ hmem))
  | item hitem _ ih =>
    have hitems := (hb.readable nofun).items
    exact ih (.value (hitems _ (List.mem_of_getElem? hitem)))
  | scope _ ih => exact ih (.scope (hb.readable nofun).scope)

/-- A name that occurs once leads to one value. -/
theorem At.unique (h : b.At place w) (hb : b.Part) (h' : b.At place w') : w = w' := by
  -- on the path: what stands below a part is a part, so its names are distinct as well
  induction h with
  | here =>
    cases h'
    rfl
  | field hmem _ ih =>
    cases h' with
    | field hmem' h' =>
      have hvalue := (Entries.find?_eq_some_iff hb.members.nodup).mpr hmem
      rw [(Entries.find?_eq_some_iff hb.members.nodup).mpr hmem'] at hvalue
      cases hvalue
      exact ih (.value (hb.members.values _ hmem)) h'
  | item hitem _ ih =>
    cases h' with
    | item hitem' h' =>
      rw [hitem'] at hitem
      cases hitem
      exact ih (.value ((hb.readable nofun).items _ (List.mem_of_getElem? hitem'))) h'
  | scope _ ih =>
    cases h' with
    | scope h' => exact ih (.scope (hb.readable nofun).scope) h'

/-- Only a scope has a member `$oid`. -/
theorem At.scope_of_mem_keys (h : b.At place (.document fields)) (hb : b.Part)
    (hname : "$oid" ∈ Entries.keys fields) :
    place = [] ∧ ¬ b.Readable ∨
      ∃ outer text, place = outer ++ [.field "$scope"] ∧
        b.At outer (.codeWithScope text fields) := by
  generalize hw : Bson.document fields = w at h
  induction h with
  | here b =>
    subst hw
    exact .inl ⟨rfl, fun hreadable => hreadable.not_mem_keys hname⟩
  | field hmem _ ih =>
    -- a member is readable, so the document is not the member itself but lies deeper
    have hvalue := hb.members.values _ hmem
    obtain ⟨-, hnot⟩ | ⟨outer, text, rfl, hat⟩ := ih (.value hvalue) hw
    · exact absurd hvalue hnot
    · exact .inr ⟨_ :: outer, text, rfl, .field hmem hat⟩
  | item hitem _ ih =>
    have hvalue := (hb.readable nofun).items _ (List.mem_of_getElem? hitem)
    obtain ⟨-, hnot⟩ | ⟨outer, text, rfl, hat⟩ := ih (.value hvalue) hw
    · exact absurd hvalue hnot
    · exact .inr ⟨_ :: outer, text, rfl, .item hitem hat⟩
  | @scope text scope place w h ih =>
    obtain ⟨rfl, -⟩ | ⟨outer, inner, rfl, hat⟩ := ih (.scope (hb.readable nofun).scope) hw
    · -- the member is one of this scope
      subst hw
      cases h
      exact .inr ⟨[], text, rfl, .here _⟩
    · exact .inr ⟨_ :: outer, inner, rfl, .scope hat⟩

end Bson

end ShellQuery

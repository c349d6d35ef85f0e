import ShellQuery.Proofs.Json.WellFormed
import ShellQuery.Proofs.Query.Call
import ShellQuery.Proofs.Resolver.Sent

/-!
# The change that a specification asks for

The entries of a specification are read one after the other.  An entry writes the part that it
names and no other, and in a query no name occurs twice, so each part of the result comes from one
entry: `part_of_mem` and `part_of_not_mem`.

A removal together with an update document is turned down, and a removal is sent only without such
a document: `findAndModify_commands`.  An update that is no document does not count as one, though.
It has no effect at all, and next to it a removal is carried out:
`findAndModify_removes_beside_pipeline`.
-/

namespace ShellQuery

open Outcome

namespace Specification

variable {spec spec' : Specification} {entries : Entries Json} {name : String} {v : Json}

/-! ## One entry -/

theorem flag_eq_ok_iff {b : Bool} : flag v = .ok b ↔ v.flag? = some b := by
  unfold flag
  cases v.flag? <;> simp

/-- An entry writes the change only under the two names that say what it is. -/
theorem add_change (h : add spec (name, v) = .ok spec') :
    spec'.update = (if name = "update" then present v else spec.update) ∧
      (if name = "remove" then v.flag? = some spec'.remove else spec'.remove = spec.remove) := by
  simp only [add] at h
  split at h
  case h_1 | h_2 | h_3 | h_4 =>
    -- the value is kept as it stands
    cases h
    exact ⟨rfl, rfl⟩
  case h_5 =>
    obtain ⟨b, hb, h⟩ := bind_eq_ok_iff.mp h
    cases h
    exact ⟨rfl, flag_eq_ok_iff.mp hb⟩
  case h_6 | h_7 | h_8 | h_9 | h_10 =>
    -- the entry is read before it is written, and neither touches the change
    obtain ⟨b, -, h⟩ := bind_eq_ok_iff.mp h
    cases h
    exact ⟨rfl, rfl⟩
  case h_11 _ _ hupdate _ hremove _ _ _ _ _ =>
    -- an entry of an unknown name is passed over
    cases h
    exact ⟨(if_neg hupdate).symm, by rw [if_neg hremove]⟩

/-! ## All entries -/

section Parts

variable {α : Type} {part : Specification → α}

/-- A part that only entries of one name write is left alone by entries of other names. -/
theorem part_of_not_mem
    (hpart : ∀ s e s', e.1 ≠ name → add s e = .ok s' → part s' = part s)
    (hname : name ∉ Entries.keys entries) (h : entries.foldlM add spec = .ok spec') :
    part spec' = part spec := by
  induction entries generalizing spec with
  | nil =>
    cases h
    rfl
  | cons e rest ih =>
    obtain ⟨k, w⟩ := e
    rw [Entries.keys_cons, List.mem_cons, not_or] at hname
    rw [List.foldlM_cons] at h
    obtain ⟨s, hs, hrest⟩ := bind_eq_ok_iff.mp h
    rw [ih hname.2 hrest, hpart spec (k, w) s (Ne.symm hname.1) hs]

/-- Where no name occurs twice, a part that only entries of one name write is as the one entry of
    that name writes it. -/
theorem part_of_mem
    (hpart : ∀ s e s', e.1 ≠ name → add s e = .ok s' → part s' = part s)
    (hnodup : (Entries.keys entries).Nodup) (hmem : (name, v) ∈ entries)
    (h : entries.foldlM add spec = .ok spec') :
    ∃ s s', add s (name, v) = .ok s' ∧ part spec' = part s' := by
  obtain ⟨before, after, rfl⟩ := List.append_of_mem hmem
  rw [List.foldlM_append] at h
  obtain ⟨s, -, hrest⟩ := bind_eq_ok_iff.mp h
  rw [List.foldlM_cons] at hrest
  obtain ⟨s', hs', hafter⟩ := bind_eq_ok_iff.mp hrest
  -- no entry behind this one has its name
  rw [Entries.keys, List.map_append, List.nodup_append] at hnodup
  have hname : name ∉ Entries.keys after := (List.nodup_cons.mp hnodup.2.1).1
  exact ⟨s, s', hs', part_of_not_mem hpart hname hafter⟩

end Parts

/-- The update of a specification is the entry `update`, unless that is `null`. -/
theorem update_of_ofEntries (hnodup : (Entries.keys entries).Nodup)
    (h : ofEntries entries = .ok spec) :
    spec.update = (Entries.find? entries "update").bind present := by
  have hpart : ∀ s e s', e.1 ≠ "update" → add s e = .ok s' → s'.update = s.update :=
    fun s e s' hne hadd => (add_change hadd).1.trans (if_neg hne)
  cases hfind : Entries.find? entries "update" with
  | none => exact part_of_not_mem hpart (Entries.find?_eq_none_iff.mp hfind) h
  | some v =>
    obtain ⟨s, s', hadd, hupdate⟩ := part_of_mem hpart hnodup (Entries.mem_of_find? hfind) h
    rw [hupdate, (add_change hadd).1]
    rfl

/-- A specification asks for removal when its entry `remove` is a flag that is true. -/
theorem remove_of_ofEntries (hnodup : (Entries.keys entries).Nodup)
    (h : ofEntries entries = .ok spec) :
    spec.remove = true ↔ ∃ v, Entries.find? entries "remove" = some v ∧ Truthy v := by
  have hpart : ∀ s e s', e.1 ≠ "remove" → add s e = .ok s' → s'.remove = s.remove := by
    intro s e s' hne hadd
    simpa [hne] using (add_change hadd).2
  cases hfind : Entries.find? entries "remove" with
  | none =>
    rw [part_of_not_mem hpart (Entries.find?_eq_none_iff.mp hfind) h]
    simp [empty]
  | some v =>
    obtain ⟨s, s', hadd, hremove⟩ := part_of_mem hpart hnodup (Entries.mem_of_find? hfind) h
    have hflag : v.flag? = some s'.remove := (add_change hadd).2
    simp [hremove, ← flag?_eq_true_iff, hflag]

/-- Only an object counts as an update. -/
theorem updateEntries?_of_ofEntries (hnodup : (Entries.keys entries).Nodup)
    (h : ofEntries entries = .ok spec) {fields : Entries Json} :
    spec.updateEntries? = some fields ↔ Entries.find? entries "update" = some (.obj fields) := by
  rw [updateEntries?, update_of_ofEntries hnodup h]
  cases Entries.find? entries "update" with
  | none => simp
  | some v => cases v <;> simp [present, Json.entries?]

/-! ## An update that does not count -/

/-- The specification with another update. -/
def withUpdate (u : Option Json) (spec : Specification) : Specification :=
  { spec with update := u }

/-- What an entry of another name writes does not depend on the update. -/
theorem add_withUpdate {u : Option Json} (hname : name ≠ "update") :
    add (spec.withUpdate u) (name, v) = (add spec (name, v)).map (withUpdate u) := by
  simp only [add]
  split
  case h_3 => exact absurd rfl hname
  case h_5 | h_6 | h_7 => cases flag v <;> rfl
  case h_8 => cases typed Json.bool? v <;> rfl
  case h_9 => cases typed natural? v <;> rfl
  case h_10 => cases typed Collation.read? v <;> rfl
  all_goals rfl

theorem foldlM_add_withUpdate {u : Option Json} (hname : "update" ∉ Entries.keys entries) :
    entries.foldlM add (spec.withUpdate u) = (entries.foldlM add spec).map (withUpdate u) := by
  induction entries generalizing spec with
  | nil => rfl
  | cons e rest ih =>
    obtain ⟨k, w⟩ := e
    rw [Entries.keys_cons, List.mem_cons, not_or] at hname
    rw [List.foldlM_cons, List.foldlM_cons, add_withUpdate (Ne.symm hname.1)]
    cases add spec (k, w) with
    | error fault => rfl
    | ok s => exact ih hname.2

theorem foldlM_add_erase (hnodup : (Entries.keys entries).Nodup)
    (hfind : Entries.find? entries "update" = some v) :
    entries.foldlM add spec =
      ((Entries.erase entries "update").foldlM add spec).map (withUpdate (present v)) := by
  induction entries generalizing spec with
  | nil => cases hfind
  | cons e rest ih =>
    obtain ⟨k, w⟩ := e
    rw [Entries.keys_cons, List.nodup_cons] at hnodup
    rw [Entries.find?] at hfind
    rw [Entries.erase]
    split at hfind
    · next hk =>
      cases hfind
      subst hk
      -- this is the entry, and none of the others writes the update
      rw [if_pos rfl, ← foldlM_add_withUpdate hnodup.1]
      rfl
    · next hk =>
      rw [if_neg hk, List.foldlM_cons, List.foldlM_cons]
      cases add spec (k, w) with
      | error fault => rfl
      | ok s => exact ih hnodup.2 hfind

/-- The entry `update` may be read behind all the others. -/
theorem ofEntries_erase (hnodup : (Entries.keys entries).Nodup)
    (hfind : Entries.find? entries "update" = some v) :
    ofEntries entries =
      (ofEntries (Entries.erase entries "update")).map (withUpdate (present v)) :=
  foldlM_add_erase hnodup hfind

/-- Without an update document the update does not matter. -/
theorem command_withUpdate {ns : Namespace} {u : Option Json}
    (hspec : spec.updateEntries? = none) (hu : (spec.withUpdate u).updateEntries? = none) :
    (spec.withUpdate u).command ns = spec.command ns := by
  unfold Specification.command
  rw [hspec, hu]
  cases hremove : spec.remove with
  | true => simp only [withUpdate, hremove, removeCommand, Specification.filter]
  | false => simp only [withUpdate, hremove]

end Specification

/-! ## Calls -/

/-- The entries ask for removal. -/
def AsksForRemoval (entries : Entries Json) : Prop :=
  ∃ v, Entries.find? entries "remove" = some v ∧ Truthy v

/-- The entries hold an update document. -/
def HasUpdateDocument (entries : Entries Json) : Prop :=
  ∃ fields, Entries.find? entries "update" = some (.obj fields)

/-- The parameters of a call have each name once. -/
theorem Query.wellFormed_of_parse {text : String} {call : Call}
    (h : Query.parse text = .ok (.call call)) : ∀ v ∈ call.parameters, v.WellFormed := by
  obtain ⟨-, t, -, hreads⟩ := reads_of_parse h
  have hblock := hreads.parameters
  generalize call.parameters = parameters at hblock ⊢
  cases hblock with
  | blank => exact nofun
  | list hlist => exact hlist.wellFormed.items

namespace Call

variable {ns : Namespace} {call : Call} {entries : Entries Json}

/-- A removal together with an update document is turned down. -/
theorem findAndModifyRequest_eq_error (hparameters : call.parameters = [.obj entries])
    (hnodup : (Entries.keys entries).Nodup) (hremove : AsksForRemoval entries)
    (hupdate : HasUpdateDocument entries) :
    ∃ fault : ParameterFault, call.findAndModifyRequest ns = .error fault.error := by
  simp only [findAndModifyRequest, hparameters]
  cases hspec : Specification.ofEntries entries with
  | error fault => exact ⟨fault, rfl⟩
  | ok spec =>
    obtain ⟨fields, hfields⟩ := hupdate
    have hentries := (Specification.updateEntries?_of_ofEntries hnodup hspec).mpr hfields
    have hflag := (Specification.remove_of_ofEntries hnodup hspec).mpr hremove
    refine ⟨.updateAndRemove, ?_⟩
    simp only [mapError_ok, Specification.command, hentries, hflag, bind, Except.bind]

/-- The change of a command is the one that the entries ask for, and they ask for one only. -/
theorem change_of_findAndModifyRequest (hparameters : call.parameters = [.obj entries])
    (hnodup : (Entries.keys entries).Nodup) {ns' : Namespace} {query : Document} {change : Change}
    {options : FindOptions}
    (h : call.findAndModifyRequest ns = .ok (.send (.findAndModify ns' query change options))) :
    change = .remove ∧ AsksForRemoval entries ∧ ¬ HasUpdateDocument entries ∨
      change ≠ .remove ∧ HasUpdateDocument entries ∧ ¬ AsksForRemoval entries := by
  obtain ⟨entries', hentries', spec, hspec, command, hcommand, hsend⟩ :=
    findAndModifyRequest_eq_ok_iff.mp h
  rw [hparameters] at hentries'
  cases hentries'
  cases hsend
  have hremove := Specification.remove_of_ofEntries hnodup hspec
  have hupdate := @Specification.updateEntries?_of_ofEntries _ _ hnodup hspec
  obtain ⟨fields, hfields, hflag, hcommand⟩ | ⟨hnone, hflag, hcommand⟩ :=
    Specification.command_eq_ok_iff.mp hcommand
  · -- an update document, so the flag is not set
    obtain ⟨_, -, _, -, _, -, _, -, -, -, heq⟩ := Specification.updateCommand_eq_ok_iff.mp hcommand
    cases heq
    refine .inr ⟨nofun, ⟨fields, hupdate.mp hfields⟩, fun hasks => ?_⟩
    rw [hremove.mpr hasks] at hflag
    cases hflag
  · -- the flag is set, so there is no update document
    obtain ⟨_, -, _, -, _, -, -, heq⟩ := Specification.removeCommand_eq_ok_iff.mp hcommand
    cases heq
    refine .inl ⟨rfl, hremove.mp hflag, fun ⟨fields, hfields⟩ => ?_⟩
    rw [hupdate.mpr hfields] at hnone
    cases hnone

/-- An update that is no document has no effect. -/
theorem findAndModifyRequest_erase (hparameters : call.parameters = [.obj entries])
    (hnodup : (Entries.keys entries).Nodup) (hupdate : ¬ HasUpdateDocument entries) :
    call.findAndModifyRequest ns =
      { call with parameters := [.obj (Entries.erase entries "update")] }.findAndModifyRequest
        ns := by
  cases hfind : Entries.find? entries "update" with
  | none => rw [Entries.erase_of_not_mem (Entries.find?_eq_none_iff.mp hfind), ← hparameters]
  | some v =>
    simp only [findAndModifyRequest, hparameters, Specification.ofEntries_erase hnodup hfind]
    cases hspec : Specification.ofEntries (Entries.erase entries "update") with
    | error fault => rfl
    | ok spec =>
      -- without the entry there is no update, and with it there is none that counts
      have hnone : spec.update = none := by
        rw [Specification.update_of_ofEntries (Entries.nodup_keys_erase hnodup) hspec,
          Entries.find?_eq_none_iff.mpr (Entries.not_mem_keys_erase hnodup)]
        rfl
      have hpresent : (Specification.present v).bind Json.entries? = none := by
        cases v with
        | obj fields => exact absurd ⟨fields, hfind⟩ hupdate
        | null | bool | int | float | str | arr => rfl
      have hcommand := @Specification.command_withUpdate spec ns (Specification.present v)
        (by rw [Specification.updateEntries?, hnone]; rfl) hpresent
      simp only [Except.map, mapError_ok, bind, Except.bind, hcommand]

end Call

/-! ## Main result -/

namespace Resolver

variable {r : Resolver} {text : String} {b : Backend} {call : Call} {entries : Entries Json}

/-- A specification asks for removal or for an update by a document, never for both.  If it does
    ask for both it is turned down and nothing is sent.  The change that is sent is the one that it
    asks for.  An update that is no document has no effect, whatever else is asked for. -/
theorem findAndModify_commands (r : Resolver) (text : String) (b : Backend) (call : Call)
    (entries : Entries Json) (hparse : Query.parse text = .ok (.call call))
    (hop : call.operation = .findAndModify) (hparameters : call.parameters = [.obj entries]) :
    (AsksForRemoval entries → HasUpdateDocument entries →
      (∃ fault : ParameterFault, (r.resolve text b).1 = .error fault.error) ∧
        r.commands text b = []) ∧
    (∀ ns query change options, .findAndModify ns query change options ∈ r.commands text b →
      change = .remove ∧ AsksForRemoval entries ∧ ¬ HasUpdateDocument entries ∨
        change ≠ .remove ∧ HasUpdateDocument entries ∧ ¬ AsksForRemoval entries) ∧
    (¬ HasUpdateDocument entries →
      r.callRequest call =
        r.callRequest { call with parameters := [.obj (Entries.erase entries "update")] }) := by
  have hnodup : (Entries.keys entries).Nodup := by
    have hwf := Query.wellFormed_of_parse hparse
    rw [hparameters] at hwf
    exact (hwf _ List.mem_cons_self).nodup_keys
  refine ⟨?_, ?_, ?_⟩
  · intro hremove hupdate
    -- the database is asked for before the specification is read, and may be what fails
    have herror : ∃ fault : ParameterFault, r.request text = .error fault.error := by
      rw [request_of_parse hparse, callRequest]
      cases hdatabase : r.databaseFor call.database with
      | error e =>
        obtain rfl := databaseFor_eq_error hdatabase
        exact ⟨.noDatabase, rfl⟩
      | ok database =>
        obtain ⟨fault, hfault⟩ :=
          @Call.findAndModifyRequest_eq_error ⟨database, call.collection⟩ _ _ hparameters hnodup
            hremove hupdate
        refine ⟨fault, ?_⟩
        simp only [bind, Except.bind, operationRequest, hop, hfault]
    obtain ⟨fault, hfault⟩ := herror
    exact ⟨⟨fault, by rw [resolve_of_request_error b hfault]⟩, commands_of_error hfault⟩
  · intro ns query change options h
    -- only documents to insert are changed on their way, so the command is the request
    rw [mem_commands_iff_of_not_insert (by simp [Command.operation?])] at h
    obtain ⟨call', ns', hparse', -, hrequest⟩ := call_of_request h rfl
    rw [hparse] at hparse'
    cases hparse'
    simp only [operationRequest, hop] at hrequest
    exact Call.change_of_findAndModifyRequest hparameters hnodup hrequest
  · intro hupdate
    have hrequest := fun ns =>
      @Call.findAndModifyRequest_erase ns _ _ hparameters hnodup hupdate
    simp only [callRequest, operationRequest, hop, hrequest]

/-- A removal together with an update document is turned down before anything is sent. -/
theorem findAndModify_both_turned_down :
    ∃ call entries,
      Query.parse "c.findAndModify(\x7b\"remove\": true, \"update\": \x7b\"a\": \"b\"\x7d\x7d)" =
        .ok (.call call) ∧
      call.operation = .findAndModify ∧ call.parameters = [.obj entries] ∧
      AsksForRemoval entries ∧ HasUpdateDocument entries ∧
      Resolver.commands ⟨some "d", false⟩
        "c.findAndModify(\x7b\"remove\": true, \"update\": \x7b\"a\": \"b\"\x7d\x7d)" (.fresh []) =
          [] := by
  have htokens : Json.tokens "[\x7b\"remove\": true, \"update\": \x7b\"a\": \"b\"\x7d\x7d]".toList =
      some [.openArray, .openObject, .leaf (.str "remove"), .colon, .leaf (.bool true), .comma,
        .leaf (.str "update"), .colon, .openObject, .leaf (.str "a"), .colon, .leaf (.str "b"),
        .closeObject, .closeObject, .closeArray] := by rfl
  have hparse := Query.parse_of_block .findAndModify
    "c.findAndModify(\x7b\"remove\": true, \"update\": \x7b\"a\": \"b\"\x7d\x7d)"
    "\x7b\"remove\": true, \"update\": \x7b\"a\": \"b\"\x7d\x7d" (by decide) htokens rfl
  have hremove : AsksForRemoval [("remove", .bool true), ("update", .obj [("a", .str "b")])] :=
    ⟨_, rfl, .bool⟩
  have hupdate : HasUpdateDocument [("remove", .bool true), ("update", .obj [("a", .str "b")])] :=
    ⟨_, rfl⟩
  exact ⟨_, _, hparse, rfl, rfl, hremove, hupdate,
    ((findAndModify_commands _ _ _ _ _ hparse rfl rfl).1 hremove hupdate).2⟩

/-- An update by a pipeline is no document: the removal beside it is sent.  With a faulty sort order
    it is the conversion of the order that fails, after the removal has been chosen. -/
theorem findAndModify_removes_beside_pipeline :
    (∃ call entries stages,
      Query.parse
        "c.findAndModify(\x7b\"remove\":true,\"update\":[\x7b\"$unset\":\"a\"\x7d]\x7d)" =
          .ok (.call call) ∧
      call.parameters = [.obj entries] ∧ AsksForRemoval entries ∧
      Entries.find? entries "update" = some (.arr stages) ∧
      ∃ query options, Resolver.commands ⟨some "d", false⟩
        "c.findAndModify(\x7b\"remove\":true,\"update\":[\x7b\"$unset\":\"a\"\x7d]\x7d)"
          (.fresh []) = [.findAndModify ⟨"d", "c"⟩ query .remove options]) ∧
    ∃ call entries stages,
      Query.parse
        "c.findAndModify(\x7b\"remove\":true,\"update\":[],\"sort\":\"\"\x7d)" =
          .ok (.call call) ∧
      call.parameters = [.obj entries] ∧ AsksForRemoval entries ∧
      Entries.find? entries "update" = some (.arr stages) ∧
      (Resolver.resolve ⟨some "d", false⟩
        "c.findAndModify(\x7b\"remove\":true,\"update\":[],\"sort\":\"\"\x7d)"
          (.fresh [])).1 = .error (.conversion (.notADocument "String")) := by
  constructor
  · have htokens : Json.tokens
        "[\x7b\"remove\":true,\"update\":[\x7b\"$unset\":\"a\"\x7d]\x7d]".toList =
        some [.openArray, .openObject, .leaf (.str "remove"), .colon, .leaf (.bool true), .comma,
          .leaf (.str "update"), .colon, .openArray, .openObject, .leaf (.str "$unset"), .colon,
          .leaf (.str "a"), .closeObject, .closeArray, .closeObject, .closeArray] := by rfl
    have hparse := Query.parse_of_block .findAndModify
      "c.findAndModify(\x7b\"remove\":true,\"update\":[\x7b\"$unset\":\"a\"\x7d]\x7d)"
      "\x7b\"remove\":true,\"update\":[\x7b\"$unset\":\"a\"\x7d]\x7d"
      (by decide) htokens rfl
    have hrequest := request_of_parse (r := ⟨some "d", false⟩) hparse
    exact ⟨_, _, _, hparse, rfl, ⟨_, rfl, .bool⟩, rfl, _, _, commands_of_send (hrequest.trans rfl)⟩
  · have htokens : Json.tokens
        "[\x7b\"remove\":true,\"update\":[],\"sort\":\"\"\x7d]".toList =
        some [.openArray, .openObject, .leaf (.str "remove"), .colon, .leaf (.bool true), .comma,
          .leaf (.str "update"), .colon, .openArray, .closeArray, .comma, .leaf (.str "sort"),
          .colon, .leaf (.str ""), .closeObject, .closeArray] := by rfl
    have hparse := Query.parse_of_block .findAndModify
      "c.findAndModify(\x7b\"remove\":true,\"update\":[],\"sort\":\"\"\x7d)"
      "\x7b\"remove\":true,\"update\":[],\"sort\":\"\"\x7d"
      (by decide) htokens rfl
    have hrequest := request_of_parse (r := ⟨some "d", false⟩) hparse
    refine ⟨_, _, _, hparse, rfl, ⟨_, rfl, .bool⟩, rfl, ?_⟩
    rw [resolve_of_request_error _ (hrequest.trans rfl)]
    rfl

end Resolver

end ShellQuery

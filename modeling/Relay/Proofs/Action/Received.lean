import Relay.Proofs.Action.Written
import Relay.Proofs.Except

/-! # What is received

The data of an action that is read is a value out of its fields. So actions that are read from
ordered JSON are regular, and written again they nest at most one level deeper: a list of actions
that the sender left out is written as an empty one.
-/

namespace Relay

private theorem optional_eq_some {r : Record} {name : String} {value : Json}
    (read : r.optional name some = some (some value)) :
    value ≠ .null ∧ (name, value) ∈ r.fields := by
  rw [Record.optional] at read
  split at read
  · cases read
  · cases read
  · rename_i held notNull found
    cases read
    exact ⟨notNull, Fields.mem_of_lookup found⟩

private theorem getD_null {fields : List (String × Json)} {name : String} {j : Json}
    (held : (fields.lookup name).getD .null = j) : j = .null ∨ ∃ key, (key, j) ∈ fields := by
  cases found : fields.lookup name with
  | none => exact .inl (by rw [← held, found]; rfl)
  | some value =>
    rw [found] at held
    cases held
    exact .inr ⟨name, Fields.mem_of_lookup found⟩

private theorem Call.ofRecord?_body {r : Record} {c : Call} (read : ofRecord? r = some c) :
    r.optional "body" some = some c.body := by
  simp only [ofRecord?, Option.bind_eq_bind, Option.bind_eq_some_iff] at read
  obtain ⟨body, found, _, -, _, -, _, -, _, -, _, -, _, -, _, -, _, -, _, -, same⟩ := read
  cases same
  exact found

namespace Action

/-- Where the parts of an action come from: its data out of its fields, its nested actions from
what reads these. -/
def From (fields : List (String × Json)) (children : Except DecodeError (List Action)) :
    Action → Prop
  | step _ s => (∀ j, s.data? = some j → j = .null ∨ ∃ key, (key, j) ∈ fields) ∧
      ∀ kind, s = .unknown kind → kind ∉ knownKinds
  | call _ c shipped => children = .ok shipped ∧
      ∀ j, c.body = some j → j ≠ .null ∧ ∃ key, (key, j) ∈ fields
  | group _ members => children = .ok members

private theorem readKind_from {kind : String} {mode : Mode} {fields : List (String × Json)}
    {children : Unit → Except DecodeError (List Action)} {a : Action}
    (read : readKind kind mode fields children = .ok a) : From fields (children ()) a := by
  unfold readKind at read
  split at read
  · obtain ⟨message, -, same⟩ := bind_eq_ok read
    cases same
    exact ⟨nofun, nofun⟩
  · obtain ⟨duration, -, same⟩ := bind_eq_ok read
    cases same
    exact ⟨nofun, nofun⟩
  · obtain ⟨key, -, same⟩ := bind_eq_ok read
    cases same
    exact ⟨fun j held => getD_null (Option.some.inj held), nofun⟩
  · obtain ⟨source, -, same⟩ := bind_eq_ok read
    cases same
    exact ⟨nofun, nofun⟩
  · obtain ⟨shipped, nested, read⟩ := bind_eq_ok read
    obtain ⟨c, own, same⟩ := bind_eq_ok read
    cases same
    refine ⟨nested, ?_⟩
    intro j held
    cases record : Call.ofRecord? ⟨fields⟩ with
    | none => rw [record] at own; cases own
    | some c' =>
      rw [record] at own
      cases own
      obtain ⟨notNull, member⟩ := optional_eq_some (held ▸ Call.ofRecord?_body record)
      exact ⟨notNull, "body", member⟩
  · cases read
    exact ⟨fun j held => getD_null (Option.some.inj held), nofun⟩
  · obtain ⟨members, nested, same⟩ := bind_eq_ok read
    cases same
    exact nested
  · cases read
    refine ⟨nofun, ?_⟩
    intro kind same
    cases same
    simp only [knownKinds, List.mem_cons, List.not_mem_nil, or_false, not_or]
    exact ⟨‹_›, ‹_›, ‹_›, ‹_›, ‹_›, ‹_›, ‹_›⟩

private theorem ofRecord?_of_readKind {kind : String} {mode mode' : Mode}
    {fields : List (String × Json)} {children : Unit → Except DecodeError (List Action)}
    {c : Call} {shipped : List Action}
    (read : readKind kind mode fields children = .ok (call mode' c shipped)) :
    Call.ofRecord? ⟨fields⟩ = some c := by
  unfold readKind at read
  split at read
  case h_5 =>
    obtain ⟨_, -, read⟩ := bind_eq_ok read
    obtain ⟨own, record, same⟩ := bind_eq_ok read
    cases same
    cases held : Call.ofRecord? ⟨fields⟩ with
    | none => rw [held] at record; cases record
    | some c' => rw [held] at record; cases record; rfl
  case h_6 => cases read
  case h_8 => cases read
  all_goals
    obtain ⟨_, -, same⟩ := bind_eq_ok read
    cases same

theorem ofFields_kind {fields : List (String × Json)}
    {children : Unit → Except DecodeError (List Action)} {a : Action}
    (read : ofFields fields children = .ok a) :
    ∃ kind mode, readKind kind mode fields children = .ok a := by
  rw [ofFields] at read
  split at read
  · cases read
  · obtain ⟨repeats, -, read⟩ := bind_eq_ok read
    obtain ⟨wait, -, read⟩ := bind_eq_ok read
    obtain ⟨verbose, -, read⟩ := bind_eq_ok read
    split at read
    · rename_i own
      cases read
      exact ⟨_, _, own⟩
    · cases read
  · cases read

theorem ofFields_from {fields : List (String × Json)}
    {children : Unit → Except DecodeError (List Action)} {a : Action}
    (read : ofFields fields children = .ok a) : From fields (children ()) a := by
  obtain ⟨kind, mode, own⟩ := ofFields_kind read
  exact readKind_from own

/-- A call that is read has the fields of a call. -/
theorem ofFields_call {fields : List (String × Json)}
    {children : Unit → Except DecodeError (List Action)} {mode : Mode} {c : Call}
    {shipped : List Action} (read : ofFields fields children = .ok (call mode c shipped)) :
    Call.ofRecord? ⟨fields⟩ = some c := by
  obtain ⟨kind, mode', own⟩ := ofFields_kind read
  exact ofRecord?_of_readKind own

/-- The list is regular, and without doubles and delays it is written with at most so many levels
below the array. -/
def Settled (levels : Nat) (actions : List Action) : Prop :=
  RegularList actions ∧ (IntegralList actions → ∀ item ∈ toJsonList actions, item.depth ≤ levels)

private theorem depth_entries {kind : String} {mode : Mode} {own : List (String × Json)}
    {levels : Nat} (fields : ∀ field ∈ own, field.2.depth ≤ levels) :
    (Json.object (entries kind own mode)).depth ≤ levels + 1 := by
  refine Json.depth_object_le.2 ⟨levels, rfl, ?_⟩
  intro field member
  have written : field ∈ ("type", Json.string kind) :: own ++ mode.toFields :=
    Fields.mem_of_mem_ofList member
  rcases List.mem_append.1 written with front | option
  · rcases List.mem_cons.1 front with rfl | held
    · exact Nat.zero_le _
    · exact fields field held
  · exact mode.forall_toFields (P := fun j => j.depth ≤ levels) (fun _ => Nat.zero_le _)
      (fun _ => Nat.zero_le _) field option

/-- An action whose data come from fields within some levels is regular, and is written with at
most two more. -/
private theorem settled_of_from {fields : List (String × Json)} {levels : Nat}
    (tidy : ∀ field ∈ fields, field.2.Tidy levels)
    {children : Except DecodeError (List Action)} {a : Action} (origin : From fields children a)
    (below : ∀ actions, children = .ok actions → Settled levels actions) :
    a.All Step.Regular Call.Regular ∧
      (a.All Step.Integral Call.Integral → a.toJson.depth ≤ levels + 2) := by
  cases a with
  | step mode s =>
    obtain ⟨data, foreign⟩ := origin
    have held : ∀ j, s.data? = some j → j.Tidy levels := by
      intro j held
      rcases data j held with rfl | ⟨key, member⟩
      · exact ⟨trivial, Nat.zero_le _⟩
      · exact tidy _ member
    refine ⟨⟨fun j here => (held j here).1, foreign⟩, fun _ => ?_⟩
    refine depth_entries (Step.forall_toFields (P := fun j => j.depth ≤ levels + 1)
      (fun _ => Nat.zero_le _) (fun _ => Nat.zero_le _) fun j here => ?_)
    exact Nat.le_succ_of_le (held j here).2
  | call mode c shipped =>
    -- The array of the nested actions may be new, so it takes the second level.
    obtain ⟨nested, data⟩ := origin
    obtain ⟨regular, shallow⟩ := below shipped nested
    have held : ∀ j, c.body = some j → j.Tidy levels := by
      intro j here
      obtain ⟨-, key, member⟩ := data j here
      exact tidy _ member
    refine ⟨⟨fun j here => ⟨(held j here).1, (data j here).1⟩, regular⟩, fun integral => ?_⟩
    refine depth_entries (Call.forall_toFields (P := fun j => j.depth ≤ levels + 1)
      (fun _ => Nat.zero_le _) ?_ (fun j here => ?_) ?_ integral.1.delay)
    · refine Json.depth_object_le.2 ⟨levels, rfl, ?_⟩
      intro field member
      obtain ⟨entry, -, rfl⟩ := List.mem_map.1 member
      exact Nat.zero_le _
    · exact Nat.le_succ_of_le (held j here).2
    · exact Json.depth_array_le.2 ⟨levels, rfl, shallow integral.2⟩
  | group mode members =>
    obtain ⟨regular, shallow⟩ := below members origin
    refine ⟨regular, ?_⟩
    intro integral
    have fields : ∀ field ∈ [("actions", Json.array (toJsonList members))],
        field.2.depth ≤ levels + 1 := by
      intro field member
      obtain rfl := List.mem_singleton.1 member
      exact Json.depth_array_le.2 ⟨levels, rfl, shallow integral⟩
    exact depth_entries fields

mutual

theorem ofJson_settled {levels : Nat} {j : Json} {a : Action} (tidy : j.Tidy levels)
    (read : ofJson j = .ok a) : a.All Step.Regular Call.Regular ∧
      (a.All Step.Integral Call.Integral → a.toJson.depth ≤ levels + 1) := by
  cases j with
  | object fields =>
    obtain ⟨level, rfl, inside⟩ := tidy.fields
    apply settled_of_from inside (ofFields_from read)
    intro shipped nested
    exact ofActionsField_settled inside nested
  | _ => cases read

theorem ofActionsField_settled {levels : Nat} {fields : List (String × Json)}
    {actions : List Action} (tidy : ∀ field ∈ fields, field.2.Tidy levels)
    (read : ofActionsField fields = .ok actions) : Settled levels actions := by
  cases fields with
  | nil =>
    cases read
    exact ⟨trivial, fun _ _ member => absurd member List.not_mem_nil⟩
  | cons field rest =>
    obtain ⟨key, value⟩ := field
    rw [ofActionsField] at read
    split at read
    · exact ofJsonList_settled (tidy _ List.mem_cons_self) read
    · exact ofActionsField_settled (fun other member => tidy other (List.mem_cons_of_mem _ member))
        read

theorem ofJsonList_settled {levels : Nat} {j : Json} {actions : List Action}
    (tidy : j.Tidy levels) (read : ofJsonList j = .ok actions) : Settled levels actions := by
  cases j with
  | array items =>
    obtain ⟨level, rfl, inside⟩ := tidy.items
    exact ofItems_settled inside read
  | _ => cases read

theorem ofItems_settled {levels : Nat} {items : List Json} {actions : List Action}
    (tidy : ∀ item ∈ items, item.Tidy levels) (read : ofItems items = .ok actions) :
    Settled (levels + 1) actions := by
  cases items with
  | nil =>
    cases read
    exact ⟨trivial, fun _ _ member => absurd member List.not_mem_nil⟩
  | cons item rest =>
    rw [ofItems] at read
    split at read
    · cases read
    · rename_i a first
      split at read
      · cases read
      · rename_i others later
        cases read
        obtain ⟨regular, shallow⟩ := ofJson_settled (tidy item List.mem_cons_self) first
        obtain ⟨regularRest, shallowRest⟩ :=
          ofItems_settled (fun other member => tidy other (List.mem_cons_of_mem _ member)) later
        refine ⟨⟨regular, regularRest⟩, ?_⟩
        intro integral
        rw [toJsonList, List.forall_mem_cons]
        exact ⟨shallow integral.1, shallowRest integral.2⟩

end

end Action

end Relay

import Relay.Proofs.Action.RoundTrip

/-! # What an action is written as

The values in the object of an action are strings, truth values, integers, the headers, the data
of the action and the array of its nested actions. So the JSON of an action has every property
that its data has and that passes to arrays and objects.
-/

namespace Relay

/-- A property of JSON that arrays and objects have as soon as their parts do. -/
structure Json.Closed (P : Json → Prop) : Prop where
  bool : ∀ b, P (.bool b)
  int : ∀ n, P (.int n)
  string : ∀ s, P (.string s)
  array : ∀ items, (∀ item ∈ items, P item) → P (.array items)
  ofFields : ∀ fields : List (String × Json), (∀ field ∈ fields, P field.2) → P (.ofFields fields)

theorem Json.closed_ordered : Closed Ordered where
  bool _ := trivial
  int _ := trivial
  string _ := trivial
  array _ items := orderedItems_iff.2 items
  ofFields fields values :=
    ⟨Fields.ascending_ofList fields,
      orderedFields_iff.2 fun field member => values field (Fields.mem_of_mem_ofList member)⟩

theorem Json.integralItems_iff {items : List Json} :
    IntegralItems items ↔ ∀ item ∈ items, item.Integral := by
  induction items with
  | nil => simp [IntegralItems]
  | cons item rest ih => simp [IntegralItems, ih]

theorem Json.integralFields_iff {fields : List (String × Json)} :
    IntegralFields fields ↔ ∀ field ∈ fields, field.2.Integral := by
  induction fields with
  | nil => simp [IntegralFields]
  | cons field rest ih => simp [IntegralFields, ih]

theorem Json.closed_integral : Closed Integral where
  bool _ := trivial
  int _ := trivial
  string _ := trivial
  array _ items := integralItems_iff.2 items
  ofFields _ values :=
    integralFields_iff.2 fun field member => values field (Fields.mem_of_mem_ofList member)

/-! ## Fields -/

section Values

variable {P : Json → Prop}

private theorem forall_single {name : String} {j : Json} (held : P j) :
    ∀ field ∈ [(name, j)], P field.2 := by
  intro field member
  obtain rfl := List.mem_singleton.1 member
  exact held

private theorem forall_optionalField {name : String} {value : Option Json}
    (held : ∀ j, value = some j → P j) :
    ∀ field ∈ Call.optionalField name value, P field.2 := by
  cases value with
  | none => exact List.forall_mem_nil _
  | some j => exact forall_single (held j rfl)

private theorem forall_string {name : String} {value : Option String}
    (string : ∀ s, P (.string s)) :
    ∀ field ∈ Call.optionalField name (value.map .string), P field.2 := by
  apply forall_optionalField
  intro j held
  obtain ⟨s, -, rfl⟩ := Option.map_eq_some_iff.1 held
  exact string s

theorem Mode.forall_toFields (mode : Mode) (bool : ∀ b, P (.bool b)) (int : ∀ n, P (.int n)) :
    ∀ field ∈ mode.toFields, P field.2 := by
  have number : P (Json.ofNat mode.repeats.toNat) := by
    rw [Json.ofNat_toNat]
    exact int _
  rw [Mode.toFields, List.forall_mem_append, List.forall_mem_append]
  refine ⟨⟨?_, ?_⟩, ?_⟩
  · split
    · exact List.forall_mem_nil _
    · exact forall_single number
  · split
    · exact List.forall_mem_nil _
    · exact forall_single (bool false)
  · split
    · exact forall_single (bool true)
    · exact List.forall_mem_nil _

theorem Step.forall_toFields {s : Step} (int : ∀ n, P (.int n)) (string : ∀ s, P (.string s))
    (data : ∀ j, s.data? = some j → P j) : ∀ field ∈ s.toFields, P field.2 := by
  cases s with
  | log message => exact forall_string string
  | wait duration =>
    apply forall_optionalField
    intro j held
    obtain ⟨n, -, rfl⟩ := Option.map_eq_some_iff.1 held
    exact int _
  | set key value =>
    rw [toFields, List.forall_mem_cons]
    exact ⟨string key, forall_single (data value rfl)⟩
  | code source => exact forall_single (string source)
  | ret value => exact forall_single (data value rfl)
  | unknown kind => exact List.forall_mem_nil _

theorem Call.forall_toFields {c : Call} {shipped : Json} (string : ∀ s, P (.string s))
    (headers : P (.object (c.headers.map Json.string).entries))
    (body : ∀ j, c.body = some j → P j) (nested : P shipped)
    (delay : c.startDelay.abs < Decimal.epsilon) :
    ∀ field ∈ c.toFields shipped, P field.2 := by
  have written : ∀ j, (if c.headers.entries.isEmpty then none
      else some (Json.object (c.headers.map Json.string).entries)) = some j → P j := by
    intro j held
    split at held
    · cases held
    · cases held
      exact headers
  have places : ∀ field ∈ [("path", Json.string c.path), ("method", .string c.method)],
      P field.2 := by
    rw [List.forall_mem_cons]
    exact ⟨string c.path, forall_single (string c.method)⟩
  rw [toFields]
  simp only [if_pos delay, List.forall_mem_append]
  exact ⟨⟨⟨⟨⟨⟨⟨⟨⟨forall_string string, forall_string string⟩, forall_string string⟩,
    forall_string string⟩, places⟩, forall_optionalField written⟩, forall_optionalField body⟩,
    forall_single nested⟩, forall_string string⟩, List.forall_mem_nil _⟩

end Values

/-! ## Actions -/

namespace Action

variable {P : Json → Prop}

private theorem headers_closed (closed : Json.Closed P) (c : Call) :
    P (.object (c.headers.map Json.string).entries) := by
  have sorted : Json.ofFields (c.headers.map Json.string).entries =
      .object (c.headers.map Json.string).entries :=
    congrArg Json.object (Fields.ofList_of_ascending (c.headers.map Json.string).ascending)
  rw [← sorted]
  apply closed.ofFields
  intro field member
  obtain ⟨entry, -, rfl⟩ := List.mem_map.1 member
  exact closed.string entry.2

private theorem entries_closed (closed : Json.Closed P) {kind : String} {mode : Mode}
    {own : List (String × Json)} (fields : ∀ field ∈ own, P field.2) :
    P (.object (entries kind own mode)) := by
  refine closed.ofFields _ ?_
  rw [List.forall_mem_append, List.forall_mem_cons]
  exact ⟨⟨closed.string kind, fields⟩, mode.forall_toFields closed.bool closed.int⟩

mutual

/-- The JSON of an action has every property that its data has and that arrays and objects take
over from their parts. -/
theorem toJson_closed (closed : Json.Closed P) {a : Action}
    (data : a.All (fun s => ∀ j, s.data? = some j → P j) fun c =>
      (∀ j, c.body = some j → P j) ∧ c.startDelay.abs < Decimal.epsilon) : P a.toJson := by
  cases a with
  | step mode s =>
    exact entries_closed closed (Step.forall_toFields closed.int closed.string data)
  | call mode c shipped =>
    obtain ⟨⟨body, delay⟩, below⟩ := data
    have nested : P (.array (toJsonList shipped)) := closed.array _ (toJsonList_closed closed below)
    exact entries_closed closed
      (Call.forall_toFields closed.string (headers_closed closed c) body nested delay)
  | group mode members =>
    have nested : P (.array (toJsonList members)) := closed.array _ (toJsonList_closed closed data)
    have fields : ∀ field ∈ [("actions", Json.array (toJsonList members))], P field.2 :=
      forall_single nested
    exact entries_closed closed fields

theorem toJsonList_closed (closed : Json.Closed P) {actions : List Action}
    (data : AllList (fun s => ∀ j, s.data? = some j → P j) (fun c =>
      (∀ j, c.body = some j → P j) ∧ c.startDelay.abs < Decimal.epsilon) actions) :
    ∀ item ∈ toJsonList actions, P item := by
  cases actions with
  | nil => exact List.forall_mem_nil _
  | cons a rest =>
    rw [toJsonList, List.forall_mem_cons]
    exact ⟨toJson_closed closed data.1, toJsonList_closed closed data.2⟩

end

/-- Regular actions without delays are written with the fields of every object in order. -/
theorem ordered_toJsonList {actions : List Action} (regular : RegularList actions)
    (integral : IntegralList actions) : (Json.array (toJsonList actions)).Ordered := by
  refine Json.closed_ordered.array _ (toJsonList_closed Json.closed_ordered ?_)
  have both := regular.and integral
  apply both.imp
  · intro s held
    exact held.1.1
  · intro c held
    exact ⟨fun body present => (held.1 body present).1, held.2.delay⟩

/-- Actions whose data are integral are written without doubles. -/
theorem integral_toJsonList {actions : List Action} (integral : IntegralList actions) :
    (Json.array (toJsonList actions)).Integral := by
  refine Json.closed_integral.array _ (toJsonList_closed Json.closed_integral ?_)
  apply integral.imp
  · intro s held
    exact held
  · intro c held
    exact ⟨held.1, held.delay⟩

end Action

end Relay

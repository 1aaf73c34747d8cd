import Relay.Action.Codec
import Relay.Proofs.Action.Tree
import Relay.Proofs.Dict
import Relay.Proofs.Json.Reading

/-! # Reading an action back

An action is read back from the object that it is written as. The object lists the type, then the
fields of the kind, then the options that differ from their defaults, sorted by key. No two of
these parts share a key, so each field is found again as it was written, and what was left out
comes back as its default.
-/

namespace Relay

private theorem abs_of_zero {x : Float} (zero : (x == 0) = true) : x.abs = 0 := by
  have equal : x.toModel.unpack.beq (0 : Float).toModel.unpack = true := zero
  have unpacked : (0 : Float).toModel.unpack = .zero .positive := rfl
  have magnitude : x.abs = .ofModel (.pack x.toModel.unpack.abs) := rfl
  rw [unpacked] at equal
  rw [magnitude]
  cases parts : x.toModel.unpack with
  | zero sign => rfl
  | notANumber => rw [parts] at equal; exact absurd equal (by decide)
  | infinity sign => rw [parts] at equal; cases sign <;> exact absurd equal (by decide)
  | finite sign mantissa exponent positive => rw [parts] at equal; cases sign <;> cases equal

/-- The kinds that nodes know. -/
def knownKinds : List String :=
  ["log", "wait", "set", "code", "http", "return", "multi"]

namespace Step

/-- The JSON value that the step holds. -/
def data? : Step → Option Json
  | set _ value => some value
  | ret data => some data
  | _ => none

/-- The objects in the data of the step are ordered, and an unknown kind is none that is known. -/
def Regular (s : Step) : Prop :=
  (∀ j, s.data? = some j → j.Ordered) ∧ ∀ kind, s = unknown kind → kind ∉ knownKinds

/-- Every number in the data of the step is an integer. -/
def Integral (s : Step) : Prop :=
  ∀ j, s.data? = some j → j.Integral

end Step

namespace Call

/-- The objects in the body are ordered, and the body is not null. -/
def Regular (c : Call) : Prop :=
  ∀ body, c.body = some body → body.Ordered ∧ body ≠ .null

/-- Every number in the body is an integer, and the call starts without delay. -/
def Integral (c : Call) : Prop :=
  (∀ body, c.body = some body → body.Integral) ∧ (c.startDelay == 0) = true

/-- A call without delay is written without one. -/
theorem Integral.delay {c : Call} (integral : c.Integral) :
    c.startDelay.abs < Decimal.epsilon := by
  have zero : c.startDelay.abs = 0 := abs_of_zero integral.2
  rw [zero]
  decide

end Call

/-! ## Values -/

private theorem asNatBelow?_int {exact : ExactInt} {n bound : Nat} (same : exact.val = n)
    (less : n < bound) : (Json.int exact).asNatBelow? bound = some n := by
  have inside : 0 ≤ exact.val ∧ exact.val < bound := by omega
  rw [Json.asNatBelow?, if_pos inside, same, Int.toNat_natCast]

private theorem asUInt64?_ofUInt64 (n : UInt64) : (Json.ofUInt64 n).asUInt64? = some n := by
  have number : (Json.ofUInt64 n).asNatBelow? UInt64.size = some n.toNat :=
    asNatBelow?_int rfl n.toNat_lt
  rw [Json.asUInt64?, number, Option.map_some, UInt64.ofNat_toNat]

/-- A number of 32 bits is written as an integer. -/
theorem Json.ofNat_toNat (n : UInt32) : Json.ofNat n.toNat = Json.ofUInt64 n.toUInt64 := by
  refine ofNat_of_val ?_
  simp [ExactInt.ofUInt64]

private theorem asUInt32?_ofNat (n : UInt32) : (Json.ofNat n.toNat).asUInt32? = some n := by
  have number : (Json.ofNat n.toNat).asNatBelow? UInt32.size = some n.toNat := by
    rw [Json.ofNat_toNat]
    refine asNatBelow?_int ?_ n.toNat_lt
    simp [ExactInt.ofUInt64]
  rw [Json.asUInt32?, number, Option.map_some, UInt32.ofNat_toNat]

private theorem asDict?_strings (d : Dict String) :
    (Json.object (d.map Json.string).entries).asDict? Json.asString? = some d := by
  have entries : (d.map Json.string).entries.mapM
      (fun field => (Json.asString? field.2).map (Prod.mk field.1)) = some d.entries := by
    rw [Dict.map, List.mapM_map]
    exact (List.mapM_pure (m := Option) (f := id)).trans (congrArg some (List.map_id _))
  rw [Json.asDict?, entries]
  simp [Dict.ofList, Fields.ofList_of_ascending d.ascending]

/-! ## Fields -/

open Fields (lookup_ofList_cons lookup_ofList_append)

theorem lookup_optionalField (name : String) (value : Option Json) (key : String) :
    (Fields.ofList (Call.optionalField name value)).lookup key =
      if key = name then value else none := by
  cases value with
  | none => exact (ite_self none).symm
  | some value => exact lookup_ofList_cons name value [] key

private theorem lookup_mode (mode : Mode) (key : String) :
    (Fields.ofList mode.toFields).lookup key =
      if key = "repeat" then
        (if mode.repeats = 1 then none else some (Json.ofNat mode.repeats.toNat))
      else if key = "wait" then (if mode.wait then none else some (.bool false))
      else if key = "verbose" then (if mode.verbose then some (.bool true) else none)
      else none := by
  have single (written : Prop) [Decidable written] (name : String) (value : Json) :
      (Fields.ofList (if written then [] else [(name, value)])).lookup key =
        if key = name then (if written then none else some value) else none := by
    split
    · exact (ite_self none).symm
    · exact lookup_ofList_cons name value [] key
  have verbose : (if mode.verbose then [("verbose", Json.bool true)] else []) =
      if mode.verbose = false then [] else [("verbose", .bool true)] := by
    cases mode.verbose <;> rfl
  rw [Mode.toFields, verbose, lookup_ofList_append, lookup_ofList_append, single, single, single]
  by_cases isRepeat : key = "repeat"
  · subst isRepeat
    simp
  · by_cases isWait : key = "wait"
    · subst isWait
      simp
    · cases mode.verbose <;> simp [isRepeat, isWait]

/-- The keys of the parts that every action has. -/
def Action.commonKeys : List String :=
  ["type", "repeat", "wait", "verbose"]

/-- None of the fields of a kind has a key that every action has. -/
def Action.Apart (own : List (String × Json)) : Prop :=
  ∀ key ∈ Action.commonKeys, (Fields.ofList own).lookup key = none

/-- The entries of an action with the given fields of its kind. -/
def Action.entries (kind : String) (own : List (String × Json)) (mode : Mode) :
    List (String × Json) :=
  Fields.ofList (("type", .string kind) :: own ++ mode.toFields)

section Entries

variable {kind : String} {own : List (String × Json)} {mode : Mode}

private theorem lookup_entries (key : String) :
    (Action.entries kind own mode).lookup key =
      ((Fields.ofList mode.toFields).lookup key).or
        (((Fields.ofList own).lookup key).or
          (if key = "type" then some (.string kind) else none)) := by
  rw [Action.entries, List.cons_append, lookup_ofList_cons, lookup_ofList_append, Option.or_assoc]

theorem lookup_own {key : String} (foreign : key ∉ Action.commonKeys) :
    (Action.entries kind own mode).lookup key = (Fields.ofList own).lookup key := by
  simp only [Action.commonKeys, List.mem_cons, List.not_mem_nil, or_false, not_or] at foreign
  obtain ⟨notType, notRepeat, notWait, notVerbose⟩ := foreign
  rw [lookup_entries, lookup_mode, if_neg notRepeat, if_neg notWait, if_neg notVerbose,
    if_neg notType, Option.none_or, Option.or_none]

private theorem lookup_common (apart : Action.Apart own) {key : String}
    (common : key ∈ Action.commonKeys) :
    (Action.entries kind own mode).lookup key =
      ((Fields.ofList mode.toFields).lookup key).or
        (if key = "type" then some (.string kind) else none) := by
  rw [lookup_entries, apart key common, Option.none_or]

private theorem readOption_written {α : Type} {fields : List (String × Json)} {name : String}
    {default value : α} (written : Option Json) {read : Json → Option α}
    (found : fields.lookup name = written) (absent : written = none → value = default)
    (present : ∀ j, written = some j → j ≠ .null ∧ read j = some value) :
    Action.readOption fields name default read = .ok value := by
  rw [Action.readOption, found]
  cases written with
  | none => rw [absent rfl]
  | some j =>
    obtain ⟨notNull, reads⟩ := present j rfl
    cases j with
    | null => exact absurd rfl notNull
    | _ => simp only [reads]

private theorem readOption_repeat (apart : Action.Apart own) :
    Action.readOption (Action.entries kind own mode) "repeat" 1 Json.asUInt32? =
      .ok mode.repeats := by
  refine readOption_written
    (if mode.repeats = 1 then none else some (Json.ofNat mode.repeats.toNat)) ?_
    (fun absent => ?_) fun j present => ?_
  · rw [lookup_common apart (by decide), lookup_mode]
    simp
  · split at absent
    · assumption
    · cases absent
  · split at present
    · cases present
    · obtain rfl := Option.some.inj present
      refine ⟨?_, asUInt32?_ofNat mode.repeats⟩
      rw [Json.ofNat_toNat, Json.ofUInt64]
      exact Json.noConfusion

private theorem readOption_wait (apart : Action.Apart own) :
    Action.readOption (Action.entries kind own mode) "wait" true Json.asBool? = .ok mode.wait := by
  rw [Action.readOption, lookup_common apart (by decide), lookup_mode]
  cases mode.wait <;> simp [Json.asBool?]

private theorem readOption_verbose (apart : Action.Apart own) :
    Action.readOption (Action.entries kind own mode) "verbose" false Json.asBool? =
      .ok mode.verbose := by
  rw [Action.readOption, lookup_common apart (by decide), lookup_mode]
  cases mode.verbose <;> simp [Json.asBool?]

/-- An action is read from its entries as soon as its kind is. -/
private theorem ofFields_entries {a : Action} (apart : Action.Apart own)
    {children : Unit → Except DecodeError (List Action)}
    (read : Action.readKind kind mode (Action.entries kind own mode) children = .ok a) :
    Action.ofFields (Action.entries kind own mode) children = .ok a := by
  have type : (Action.entries kind own mode).lookup "type" = some (.string kind) := by
    rw [lookup_common apart (by decide), lookup_mode]
    simp
  rw [Action.ofFields, type]
  simp only [readOption_repeat apart, readOption_wait apart, readOption_verbose apart, bind,
    Except.bind, read]

end Entries

/-! ## Kinds -/

private theorem optional_written {α : Type} {r : Record} {name : String} {value : Option α}
    (write : α → Json) {read : Json → Option α} (found : r.fields.lookup name = value.map write)
    (reads : ∀ v, value = some v → write v ≠ .null ∧ read (write v) = some v) :
    r.optional name read = some value := by
  rw [Record.optional, found]
  cases value with
  | none => rfl
  | some v =>
    obtain ⟨notNull, back⟩ := reads v rfl
    rw [Option.map_some]
    cases written : write v with
    | null => exact absurd written notNull
    | _ => rw [written] at back; simp only [back, Option.map_some]

theorem optional_string {r : Record} {name : String} {value : Option String}
    (found : r.fields.lookup name = value.map .string) :
    r.optional name Json.asString? = some value :=
  optional_written .string found fun _ _ => ⟨Json.noConfusion, rfl⟩

private theorem withDefault_written {α : Type} {r : Record} {name : String} (default : α)
    {value : α} {written : Json} {read : Json → Option α}
    (found : r.fields.lookup name = some written)
    (reads : read written = some value) : r.withDefault name default read = some value := by
  rw [Record.withDefault, found]
  exact reads

private theorem apart_step (s : Step) : Action.Apart s.toFields := by
  intro key common
  simp only [Action.commonKeys, List.mem_cons, List.not_mem_nil, or_false] at common
  rcases common with rfl | rfl | rfl | rfl <;> cases s <;>
    simp [Step.toFields, lookup_optionalField, lookup_ofList_cons]

private theorem readKind_step {s : Step} (regular : s.Regular) (mode : Mode)
    (children : Unit → Except DecodeError (List Action)) :
    Action.readKind s.kind mode (Action.entries s.kind s.toFields mode) children =
      .ok (.step mode s) := by
  cases s with
  | log message =>
    have read : (Record.mk (Action.entries "log" (Step.log message).toFields mode)).optional
        "message" Json.asString? = some message := by
      refine optional_string ?_
      rw [lookup_own (by decide), Step.toFields, lookup_optionalField, if_pos rfl]
    simp [Action.readKind, Step.kind, read, bind, Except.bind, pure, Except.pure]
  | wait duration =>
    have read : (Record.mk (Action.entries "wait" (Step.wait duration).toFields mode)).optional
        "duration" Json.asUInt64? = some duration := by
      refine optional_written .ofUInt64 ?_
        fun n _ => ⟨Json.noConfusion, asUInt64?_ofUInt64 n⟩
      rw [lookup_own (by decide), Step.toFields, lookup_optionalField, if_pos rfl]
    simp [Action.readKind, Step.kind, read, bind, Except.bind, pure, Except.pure]
  | set key value =>
    have name : (Action.entries "set" (Step.set key value).toFields mode).lookup "key" =
        some (.string key) := by
      rw [lookup_own (by decide), Step.toFields, lookup_ofList_cons, lookup_ofList_cons]
      simp
    have data : (Action.entries "set" (Step.set key value).toFields mode).lookup "value" =
        some value := by
      rw [lookup_own (by decide), Step.toFields, lookup_ofList_cons, lookup_ofList_cons]
      simp
    simp [Action.readKind, Step.kind, Action.readRequired, name, data, bind, Except.bind, pure,
      Except.pure]
  | code source =>
    have text : (Action.entries "code" (Step.code source).toFields mode).lookup "source" =
        some (.string source) := by
      rw [lookup_own (by decide), Step.toFields, lookup_ofList_cons]
      simp
    simp [Action.readKind, Step.kind, Action.readRequired, text, bind, Except.bind, pure,
      Except.pure]
  | ret data =>
    have value : (Action.entries "return" (Step.ret data).toFields mode).lookup "data" =
        some data := by
      rw [lookup_own (by decide), Step.toFields, lookup_ofList_cons]
      simp
    simp [Action.readKind, Step.kind, value, pure, Except.pure]
  | unknown kind =>
    have foreign := regular.2 kind rfl
    simp only [knownKinds, List.mem_cons, List.not_mem_nil, or_false, not_or] at foreign
    simp [Action.readKind, Step.kind, foreign, pure, Except.pure]

/-! ## Calls -/

private theorem apart_call (c : Call) (shipped : Json) : Action.Apart (c.toFields shipped) := by
  intro key common
  simp only [Action.commonKeys, List.mem_cons, List.not_mem_nil, or_false] at common
  rcases common with rfl | rfl | rfl | rfl <;>
    simp [Call.toFields, lookup_optionalField, lookup_ofList_cons, lookup_ofList_append]

/-- The entries of a call. -/
theorem lookup_call (c : Call) (shipped : Json) (mode : Mode) :
    let fields := Action.entries "http" (c.toFields shipped) mode
    fields.lookup "name" = c.name.map .string ∧
    fields.lookup "description" = c.description.map .string ∧
    fields.lookup "origin" = c.origin.map .string ∧
    fields.lookup "node" = c.node.map .string ∧
    fields.lookup "path" = some (.string c.path) ∧
    fields.lookup "method" = some (.string c.method) ∧
    fields.lookup "headers" = (if c.headers.entries.isEmpty then none
      else some (.object (c.headers.map .string).entries)) ∧
    fields.lookup "body" = c.body ∧
    fields.lookup "actions" = some shipped ∧
    fields.lookup "saveToContext" = c.saveTo.map .string ∧
    fields.lookup "startDelaySeconds" =
      (if c.startDelay.abs < Decimal.epsilon then none else some (.float c.startDelay)) := by
  refine ⟨?_, ?_, ?_, ?_, ?_, ?_, ?_, ?_, ?_, ?_, ?_⟩ <;> rw [lookup_own (by decide)] <;>
    simp [Call.toFields, lookup_optionalField, lookup_ofList_cons, lookup_ofList_append]

/-- A call is read back; a delay of either zero comes back as the one without a sign. -/
private theorem ofRecord?_entries {c : Call} (regular : c.Regular) (integral : c.Integral)
    (shipped : Json) (mode : Mode) :
    Call.ofRecord? ⟨Action.entries "http" (c.toFields shipped) mode⟩ =
      some { c with startDelay := 0 } := by
  obtain ⟨name, description, origin, node, path, method, headers, body, -, saveTo, delay⟩ :=
    lookup_call c shipped mode
  rw [if_pos integral.delay] at delay
  generalize Action.entries "http" (c.toFields shipped) mode = fields at *
  have readBody : (Record.mk fields).optional "body" some = some c.body := by
    have same : c.body = c.body.map id := (congrFun Option.map_id c.body).symm
    refine optional_written id (body.trans same) fun value held => ?_
    exact ⟨(regular value held).2, rfl⟩
  have readHeaders : (Record.mk fields).withDefault "headers" Dict.empty
      (Json.asDict? Json.asString?) = some c.headers := by
    rw [Record.withDefault, headers]
    split
    · rename_i left
      split at left
      · rename_i empty
        exact congrArg some (Dict.eq_empty empty)
      · cases left
    · rename_i value present
      split at present
      · cases present
      · cases present
        exact asDict?_strings c.headers
  have readDelay : (Record.mk fields).withDefault "startDelaySeconds" 0 Json.asFloat? = some 0 := by
    rw [Record.withDefault, delay]
  have readPath := withDefault_written (r := ⟨fields⟩) "" path
    (rfl : Json.asString? (.string c.path) = some c.path)
  have readMethod := withDefault_written (r := ⟨fields⟩) "GET" method
    (rfl : Json.asString? (.string c.method) = some c.method)
  simp only [Call.ofRecord?, readBody, optional_string (r := ⟨fields⟩) description, readHeaders,
    readMethod, optional_string (r := ⟨fields⟩) name, optional_string (r := ⟨fields⟩) node,
    optional_string (r := ⟨fields⟩) origin, readPath, optional_string (r := ⟨fields⟩) saveTo,
    readDelay, Option.bind_eq_bind, Option.bind_some, Option.pure_def]

theorem ofActionsField_eq (fields : List (String × Json)) :
    Action.ofActionsField fields =
      match fields.lookup "actions" with
      | some shipped => Action.ofJsonList shipped
      | none => .ok [] := by
  induction fields with
  | nil => rfl
  | cons field rest ih =>
    obtain ⟨key, value⟩ := field
    rw [Action.ofActionsField]
    split
    · rename_i same
      rw [same, List.lookup_cons_self]
    · rename_i different
      rw [ih, Fields.lookup_cons_of_ne (Ne.symm different)]

theorem lookup_shipped (c : Call) (shipped : Json) (mode : Mode) :
    (Action.entries "http" (c.toFields shipped) mode).lookup "actions" = some shipped :=
  (lookup_call c shipped mode).2.2.2.2.2.2.2.2.1

theorem lookup_members (members : Json) (mode : Mode) :
    (Action.entries "multi" [("actions", members)] mode).lookup "actions" = some members := by
  rw [lookup_own (by decide), lookup_ofList_cons]
  rfl

private theorem apart_group (members : Json) : Action.Apart [("actions", members)] := by
  intro key common
  have other : key ≠ "actions" := by
    rintro rfl
    exact absurd common (by decide)
  rw [lookup_ofList_cons, if_neg other]
  rfl

private theorem readKind_call {mode : Mode} {c : Call} {received : List Action}
    {fields : List (String × Json)} {children : Unit → Except DecodeError (List Action)}
    (nested : children () = .ok received) (own : Call.ofRecord? ⟨fields⟩ = some c) :
    Action.readKind "http" mode fields children = .ok (.call mode c received) := by
  simp [Action.readKind, nested, own, bind, Except.bind, pure, Except.pure]

private theorem readKind_group {mode : Mode} {received : List Action}
    {fields : List (String × Json)} {children : Unit → Except DecodeError (List Action)}
    (nested : children () = .ok received) :
    Action.readKind "multi" mode fields children = .ok (.group mode received) := by
  simp [Action.readKind, nested, bind, Except.bind, pure, Except.pure]

/-! ## Actions -/

namespace Action

/-- The list of actions is regular throughout. -/
abbrev RegularList : List Action → Prop :=
  AllList Step.Regular Call.Regular

/-- Every number in the list of actions is an integer, and every call starts without delay. -/
abbrev IntegralList : List Action → Prop :=
  AllList Step.Integral Call.Integral

mutual

/-- An action is read back from its JSON. -/
theorem ofJson_toJson (a : Action) (regular : a.All Step.Regular Call.Regular)
    (integral : a.All Step.Integral Call.Integral) :
    ∃ received, ofJson a.toJson = .ok received ∧ Alike a received := by
  cases a with
  | step mode s =>
    refine ⟨step mode s, ?_, rfl, rfl⟩
    exact ofFields_entries (apart_step s) (readKind_step regular mode _)
  | call mode c shipped =>
    obtain ⟨received, read, alike⟩ := ofItems_toJsonList shipped regular.2 integral.2
    refine ⟨call mode { c with startDelay := 0 } received, ?_, rfl, integral.1.2, rfl, alike⟩
    have nested : ofActionsField (entries "http" (c.toFields (.array (toJsonList shipped))) mode) =
        .ok received := by
      rw [ofActionsField_eq, lookup_shipped]
      exact read
    exact ofFields_entries (apart_call c _)
      (readKind_call nested (ofRecord?_entries regular.1 integral.1 _ mode))
  | group mode members =>
    obtain ⟨received, read, alike⟩ := ofItems_toJsonList members regular integral
    refine ⟨group mode received, ?_, rfl, alike⟩
    have nested : ofActionsField (entries "multi" [("actions", .array (toJsonList members))] mode) =
        .ok received := by
      rw [ofActionsField_eq, lookup_members]
      exact read
    exact ofFields_entries (apart_group _) (readKind_group nested)

theorem ofItems_toJsonList (actions : List Action) (regular : RegularList actions)
    (integral : IntegralList actions) :
    ∃ received, ofItems (toJsonList actions) = .ok received ∧ AlikeList actions received := by
  cases actions with
  | nil => exact ⟨[], rfl, trivial⟩
  | cons a rest =>
    obtain ⟨first, readFirst, alikeFirst⟩ := ofJson_toJson a regular.1 integral.1
    obtain ⟨others, readOthers, alikeOthers⟩ := ofItems_toJsonList rest regular.2 integral.2
    refine ⟨first :: others, ?_, alikeFirst, alikeOthers⟩
    rw [toJsonList, ofItems, readFirst]
    simp only [readOthers]

end

end Action

end Relay

import Relay.Proofs.Json.Levels
import Relay.Proofs.Script.Accounting
import Relay.Proofs.Script.Conversion

/-! # Values read back from their text

`JSON.parse(JSON.stringify(e))` gives the value of `e` back if it holds no doubles and nests less
deep than values may. The deepest values that a script may hold are written, but their text is
refused, since JSON text nests one level less, `eval_reread`.
-/

namespace Relay.Script

/-- The expression `JSON.parse(JSON.stringify(e))`. -/
def Expr.reread (e : Expr) : Expr :=
  .call "JSON.parse" [.call "JSON.stringify" [e]]

/-! ## Calls -/

section Calls

variable {setting : Setting} {scope : Scope}

theorem tick_apply (due : setting.overdue = false) (m : Meter) :
    tick setting m = (.ok (), { m with steps := m.steps + 1 }) := by
  obtain ⟨limits, http, cutoff, clock⟩ := setting
  cases clock with
  | stopped => rfl
  | _ => cases due

theorem pure_apply {α : Type} (a : α) (m : Meter) : (pure a : Metered α) m = (.ok a, m) := rfl

theorem lift_apply {α : Type} (result : Except ScriptError α) (m : Meter) :
    (liftM result : Metered α) m = (result, m) := rfl

/-- A call evaluates its argument, applies the function and measures the result. -/
theorem eval_call_one (due : setting.overdue = false) {e : Expr} {m after : Meter} {v : Value}
    (evaluated : eval setting scope e { m with steps := m.steps + 1 } = (.ok v, after))
    (name : String) :
    eval setting scope (.call name [e]) m =
      (callFunction name [v] >>= setting.limits.accept, after) := by
  rw [eval]
  simp only [bind_apply, tick_apply due, evalList, evaluated, pure_apply, lift_apply,
    List.reverse_singleton]
  cases callFunction name [v] <;> rfl

end Calls

namespace Limits

variable {limits : Limits}

theorem accept_of_measure {v : Value} {bytes : Nat} (measured : limits.measure v = .ok bytes) :
    limits.accept v = .ok v := by
  rw [accept, measured]

/-- The size limit leaves room for every text that the limit for strings allows. -/
theorem accept_string (room : limits.maxStringBytes + Value.slotBytes ≤ limits.maxValueBytes)
    {s : String} (fits : s.utf8ByteSize ≤ limits.maxStringBytes) :
    limits.accept (.string s) = .ok (.string s) := by
  have small : Value.slotBytes + s.utf8ByteSize ≤ limits.maxValueBytes := by omega
  refine accept_of_measure (measure_of_footprint rfl ?_ small)
  rintro _ ⟨⟩
  exact fits

end Limits

/-! ## The text of a value -/

namespace Value

/-- The text of a value without doubles is read as the JSON that it writes, unless it nests too
deep. -/
theorem parse?_compact_toJson {v : Value} (ordered : v.toJson.Ordered)
    (floatless : v.EveryFloat fun _ => False) :
    Json.parse? v.toJson.compact =
      if v.levels < Limits.maxDepth then some v.toJson else none := by
  have within : v.toJson.depth ≤ Json.nestingLimit ↔ v.levels < Limits.maxDepth := by
    rw [depth_toJson]
    exact Nat.lt_succ_iff.symm
  simp only [Json.parse?_compact_eq ordered (integral_toJson floatless), within]

theorem callFunction_parse_stringify {v : Value} (ordered : v.toJson.Ordered)
    (floatless : v.EveryFloat fun _ => False) :
    callFunction "JSON.parse" [.string v.toJson.compact] =
      if v.levels < Limits.maxDepth then .ok v else .error (.fault .notJson) := by
  have back : v.stored = v := (stored_eq_self_iff v).2 (.imp (fun _ => False.elim) floatless)
  have named : Builtin.ofName? "JSON.parse" = some .parseJson := rfl
  simp only [callFunction, named, Builtin.apply, Builtin.unary?, Builtin.applyParseJson,
    parse?_compact_toJson ordered floatless]
  by_cases shallow : v.levels < Limits.maxDepth
  · simp only [if_pos shallow]
    exact congrArg Except.ok back
  · simp only [if_neg shallow]

end Value

/-! ## Reading back -/

section Reread

variable {setting : Setting} {scope : Scope} {e : Expr} {m after : Meter} {v : Value} {bytes : Nat}

/-- The value is written as text, and the text is read. -/
theorem eval_reread_eq (due : setting.overdue = false)
    (room : setting.limits.maxStringBytes + Value.slotBytes ≤ setting.limits.maxValueBytes)
    (evaluated : eval setting scope e { m with steps := m.steps + 2 } = (.ok v, after))
    (fits : v.toJson.compact.utf8ByteSize ≤ setting.limits.maxStringBytes) :
    eval setting scope e.reread m =
      (callFunction "JSON.parse" [.string v.toJson.compact] >>= setting.limits.accept, after) := by
  have written : eval setting scope (.call "JSON.stringify" [e]) { m with steps := m.steps + 1 } =
      (.ok (.string v.toJson.compact), after) := by
    rw [eval_call_one due evaluated]
    exact congrArg (·, after) (Limits.accept_string room fits)
  exact eval_call_one due written "JSON.parse"

/-- A value without doubles that a script may hold is read back as it was, and so is the JSON that
it writes, if the value nests less deep than values may. If it nests as deep as they may, its text
is refused. -/
theorem eval_reread (due : setting.overdue = false)
    (room : setting.limits.maxStringBytes + Value.slotBytes ≤ setting.limits.maxValueBytes)
    (evaluated : eval setting scope e { m with steps := m.steps + 2 } = (.ok v, after))
    (ordered : v.toJson.Ordered) (floatless : v.EveryFloat fun _ => False)
    (measured : setting.limits.measure v = .ok bytes)
    (fits : v.toJson.compact.utf8ByteSize ≤ setting.limits.maxStringBytes) :
    v.levels ≤ Limits.maxDepth ∧
      eval setting scope e.reread m =
        (if v.levels < Limits.maxDepth then .ok v else .error (.fault .notJson), after) ∧
      Json.parse? v.toJson.compact =
        if v.levels < Limits.maxDepth then some v.toJson else none := by
  refine ⟨Value.levels_le_of_footprint (Limits.measure_ok measured), ?_,
    Value.parse?_compact_toJson ordered floatless⟩
  rw [eval_reread_eq due room evaluated fits,
    Value.callFunction_parse_stringify ordered floatless]
  split
  · exact congrArg (·, after) (Limits.accept_of_measure measured)
  · rfl

end Reread

/-- A scope with one local. -/
def Scope.holding (v : Value) : Scope :=
  { store := Dict.empty, locals := Dict.ofList [("v", v)] }

/-- Lists inside one another, so many levels deep. -/
def nest : Nat → Value
  | 0 => .null
  | n + 1 => .list [nest n]

theorem levels_nest (n : Nat) : (nest n).levels = n := by
  induction n with
  | zero => rfl
  | succ n ih => simp [nest, Value.levels, Value.levelsItems, ih, Nat.add_comm]

theorem footprint_nest (n extra : Nat) :
    (nest n).footprint (n + extra) = some (Value.slotBytes * (n + 1)) := by
  induction n with
  | zero => rfl
  | succ n ih =>
    rw [Nat.add_right_comm]
    simp only [nest, Value.footprint, Value.footprintItems, ih]
    exact congrArg some (Nat.add_comm _ _)

theorem ordered_nest (n : Nat) : (nest n).toJson.Ordered := by
  induction n with
  | zero => trivial
  | succ n ih => exact ⟨ih, trivial⟩

theorem floatless_nest (n : Nat) : (nest n).EveryFloat fun _ => False := by
  induction n with
  | zero => trivial
  | succ n ih => exact ⟨ih, trivial⟩

/-- A map one level less deep than values may be. -/
def parcel : Value :=
  .map [("inside", nest 126), ("label", .string "a\"b\n")]

private theorem measure_parcel : Setting.offline.limits.measure parcel = .ok 4143 := by
  have inner : (nest 126).footprint 127 = some 4064 := footprint_nest 126 1
  have size : parcel.footprint Limits.maxDepth = some 4143 := by
    simp only [parcel, Limits.maxDepth, Value.footprint, Value.footprintEntries, inner]
    rfl
  exact Limits.measure_of_footprint size nofun (by decide)

theorem eval_reread_parcel :
    ((Setting.offline.overdue = false ∧
      Setting.offline.limits.maxStringBytes + Value.slotBytes ≤
        Setting.offline.limits.maxValueBytes ∧
      eval .offline (.holding parcel) (.ident "v") { steps := 2 } = (.ok parcel, { steps := 3 })) ∧
      parcel.toJson.Ordered ∧ (parcel.EveryFloat fun _ => False) ∧
      Setting.offline.limits.measure parcel = .ok 4143 ∧
      parcel.toJson.compact.utf8ByteSize ≤ Setting.offline.limits.maxStringBytes) ∧
    eval .offline (.holding parcel) (Expr.reread (.ident "v")) {} =
      (.ok parcel, { steps := 3 }) := by
  have room : Setting.offline.limits.maxStringBytes + Value.slotBytes ≤
      Setting.offline.limits.maxValueBytes := by decide
  have evaluated : eval .offline (.holding parcel) (.ident "v") { steps := 2 } =
      (.ok parcel, { steps := 3 }) := rfl
  have ordered : parcel.toJson.Ordered := by
    refine ⟨?_, ordered_nest 126, trivial, trivial⟩
    decide
  have floatless : parcel.EveryFloat fun _ => False := ⟨floatless_nest 126, trivial, trivial⟩
  have fits : parcel.toJson.compact.utf8ByteSize ≤ Setting.offline.limits.maxStringBytes := by
    decide +kernel
  have shallow : parcel.levels < Limits.maxDepth := by
    simp [parcel, Value.levels, Value.levelsEntries, levels_nest, Limits.maxDepth]
  refine ⟨⟨⟨rfl, room, evaluated⟩, ordered, floatless, measure_parcel, fits⟩, ?_⟩
  have back := (eval_reread (m := {}) rfl room evaluated ordered floatless
    measure_parcel fits).2.1
  rw [if_pos shallow] at back
  exact back

private theorem measure_nest : Setting.offline.limits.measure (nest 128) = .ok 4128 :=
  Limits.measure_of_footprint (footprint_nest 128 0) nofun (by decide)

/-- Not every value without doubles that a script may hold is read back. -/
theorem not_eval_reread :
    ¬ ∀ (setting : Setting) (scope : Scope) (e : Expr) (m after : Meter) (v : Value) (bytes : Nat),
      setting.overdue = false → setting.limits = {} →
      eval setting scope e { m with steps := m.steps + 2 } = (.ok v, after) →
      v.toJson.Ordered → (v.EveryFloat fun _ => False) → setting.limits.measure v = .ok bytes →
      v.toJson.compact.utf8ByteSize ≤ setting.limits.maxStringBytes →
      eval setting scope e.reread m = (.ok v, after) := by
  intro always
  have evaluated : eval .offline (.holding (nest 128)) (.ident "v") { steps := 2 } =
      (.ok (nest 128), { steps := 3 }) := rfl
  have fits : (nest 128).toJson.compact.utf8ByteSize ≤ Setting.offline.limits.maxStringBytes := by
    decide +kernel
  have kept := always .offline (.holding (nest 128)) (.ident "v") {} { steps := 3 } (nest 128)
    4128 rfl rfl evaluated (ordered_nest 128) (floatless_nest 128) measure_nest fits
  have deep : ¬ (nest 128).levels < Limits.maxDepth := by
    rw [levels_nest]
    decide
  have refused := eval_reread_eq (m := {}) rfl (by decide) evaluated fits
  rw [Value.callFunction_parse_stringify (ordered_nest 128) (floatless_nest 128), if_neg deep,
    kept] at refused
  cases refused

end Relay.Script

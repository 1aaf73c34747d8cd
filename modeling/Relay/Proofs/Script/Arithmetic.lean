import Relay.Proofs.Script.Access

/-! # Arithmetic on integers

Integers are words of 64 bits, and arithmetic on them does not wrap. A sum, a difference or a
product is exact or overflows; a quotient is exact or a double; a remainder has the sign of the
dividend. Operators follow these laws in expressions and in compound assignments alike,
`arithmetic_exact`. Only a sum is measured as a value that was built, so a limit of values below the
size of one integer refuses sums that a word holds, `not_arithmetic_exact`.
-/

namespace Relay.Script

open Running

/-! ## Laws -/

/-- The result is the integer if a word holds it, and an overflow if none does. -/
structure IsExactly (n : Int) (result : Except ScriptError Value) : Prop where
  held : ∀ w : Int64, w.toInt = n → result = .ok (.int w)
  overflows : (∀ w : Int64, w.toInt ≠ n) → result = .error (.fault .integerOverflow)

/-- The result is the exact quotient if a word holds it and the quotient of the nearest doubles
otherwise, and a fault for a zero divisor alone. -/
structure IsQuotient (a b : Int64) (result : Except ScriptError Value) : Prop where
  faults : (∃ e, result = .error e) ↔ b = 0
  byZero : b = 0 → result = .error (.fault .divisionByZero)
  held : b ≠ 0 → ∀ q : Int64, a.toInt = b.toInt * q.toInt → result = .ok (.int q)
  rounded : b ≠ 0 → (∀ q : Int64, a.toInt ≠ b.toInt * q.toInt) →
    result = .ok (.float (nearestDouble a / nearestDouble b))

/-- The result is the remainder that has the sign of the dividend, and a fault for a zero divisor
and where the quotient is the one that overflows. -/
structure IsRemainder (a b : Int64) (result : Except ScriptError Value) : Prop where
  faults : (∃ e, result = .error e) ↔ b = 0 ∨ a = Int64.minValue ∧ b = -1
  byZero : b = 0 → result = .error (.fault .moduloByZero)
  overflows : a = Int64.minValue → b = -1 → result = .error (.fault .integerOverflow)
  rest : b ≠ 0 → ¬ (a = Int64.minValue ∧ b = -1) → ∃ r : Int64, result = .ok (.int r) ∧
    b.toInt ∣ a.toInt - r.toInt ∧ r.toInt.natAbs < b.toInt.natAbs ∧
    (r.toInt ≠ 0 → r.toInt.sign = a.toInt.sign)

/-- The result of an arithmetic operator on two integers is as it should be. -/
def Lawful (a b : Int64) (result : Except ScriptError Value) : BinaryOp → Prop
  | .add => IsExactly (a.toInt + b.toInt) result
  | .sub => IsExactly (a.toInt - b.toInt) result
  | .mul => IsExactly (a.toInt * b.toInt) result
  | .div => IsQuotient a b result
  | .rem => IsRemainder a b result
  | _ => True

/-! ## Operators on words -/

theorem exactInt_toInt (w : Int64) : exactInt w.toInt = .ok (.int w) := by
  rw [exactInt, if_pos ⟨w.le_toInt, w.toInt_lt⟩, Int64.ofInt_toInt]

theorem isExactly_exactInt (n : Int) : IsExactly n (exactInt n) where
  held := by
    rintro w rfl
    exact exactInt_toInt w
  overflows := by
    intro none
    rw [exactInt, if_neg]
    rintro ⟨least, greatest⟩
    exact none (Int64.ofInt n) (Int64.toInt_ofInt_of_le least greatest)

/-- A quotient of words is a word unless it is too great. -/
theorem exists_word_tdiv (a b : Int64) (small : a.toInt.tdiv b.toInt < 0x8000_0000_0000_0000) :
    ∃ q : Int64, q.toInt = a.toInt.tdiv b.toInt := by
  have least : -2 ^ 63 ≤ a.toInt.tdiv b.toInt := by
    have within := Int.natAbs_tdiv_le_natAbs a.toInt b.toInt
    have := a.le_toInt
    have := a.toInt_lt
    omega
  exact ⟨Int64.ofInt _, Int64.toInt_ofInt_of_le least small⟩

theorem toInt_ne_zero {b : Int64} (nonzero : b ≠ 0) : b.toInt ≠ 0 :=
  fun zero => nonzero (Int64.toInt_inj.1 zero)

theorem dividesExactly_iff {a b : Int64} (nonzero : b ≠ 0) :
    dividesExactly a b = true ↔ ∃ q : Int64, a.toInt = b.toInt * q.toInt := by
  rw [dividesExactly, Bool.and_eq_true, decide_eq_true_iff, decide_eq_true_iff,
    ← Int.dvd_iff_tmod_eq_zero]
  constructor
  · rintro ⟨divides, small⟩
    obtain ⟨q, quotient⟩ := exists_word_tdiv a b small
    exact ⟨q, by rw [quotient, Int.mul_tdiv_cancel' divides]⟩
  · rintro ⟨q, product⟩
    refine ⟨⟨q.toInt, product⟩, ?_⟩
    rw [product, Int.mul_tdiv_cancel_left _ (toInt_ne_zero nonzero)]
    exact q.toInt_lt

theorem isQuotient_divide (a b : Int64) : IsQuotient a b (divide (.int a) (.int b)) := by
  rw [divide]
  by_cases zero : b = 0
  · rw [if_pos zero]
    exact
      { faults := iff_of_true ⟨_, rfl⟩ zero
        byZero := fun _ => rfl
        held := absurd zero
        rounded := absurd zero }
  · rw [if_neg zero]
    by_cases divides : dividesExactly a b = true
    · obtain ⟨q, product⟩ := (dividesExactly_iff zero).1 divides
      have quotient (p : Int64) (product : a.toInt = b.toInt * p.toInt) :
          a.toInt.tdiv b.toInt = p.toInt := by
        rw [product, Int.mul_tdiv_cancel_left _ (toInt_ne_zero zero)]
      rw [if_pos divides, quotient q product, exactInt_toInt]
      refine
        { faults := iff_of_false nofun zero
          byZero := (absurd · zero)
          held := fun _ p product' => ?_
          rounded := fun _ none => absurd product (none q) }
      rw [Int64.toInt_inj.1 ((quotient q product).symm.trans (quotient p product'))]
    · rw [if_neg divides]
      exact
        { faults := iff_of_false nofun zero
          byZero := (absurd · zero)
          held := fun _ q product => absurd ((dividesExactly_iff zero).2 ⟨q, product⟩) divides
          rounded := fun _ _ => rfl }

/-- Only one quotient of words is too great to be a word. -/
theorem tdiv_lt_iff {a b : Int64} (nonzero : b ≠ 0) :
    a.toInt.tdiv b.toInt < 0x8000_0000_0000_0000 ↔ ¬ (a = Int64.minValue ∧ b = -1) := by
  have nonzero := toInt_ne_zero nonzero
  have least := a.le_toInt
  have greatest := a.toInt_lt
  have edge : a = Int64.minValue ∧ b = -1 ↔ a.toInt = -0x8000_0000_0000_0000 ∧ b.toInt = -1 := by
    rw [← Int64.toInt_inj, ← Int64.toInt_inj]
    exact Iff.rfl
  rw [edge]
  clear edge
  generalize a.toInt = n at least greatest ⊢
  generalize b.toInt = d at nonzero ⊢
  constructor
  · rintro small ⟨rfl, rfl⟩
    exact absurd small (by decide)
  · intro other
    by_cases unit : d.natAbs = 1
    · obtain rfl | rfl : d = 1 ∨ d = -1 := by omega
      · rw [Int.tdiv_one]
        exact greatest
      · rw [Int.tdiv_neg, Int.tdiv_one]
        omega
    · -- A divisor of two or more in magnitude leaves at most half of the dividend.
      have half : (n.tdiv d).natAbs ≤ n.natAbs / 2 := by
        rw [Int.natAbs_tdiv]
        exact Nat.div_le_div_left (by omega) (by decide)
      omega

theorem isRemainder_remainder (a b : Int64) : IsRemainder a b (remainder (.int a) (.int b)) := by
  rw [remainder]
  by_cases zero : b = 0
  · rw [if_pos zero]
    have plus : b ≠ -1 := by
      rw [zero]
      decide
    exact
      { faults := iff_of_true ⟨_, rfl⟩ (.inl zero)
        byZero := fun _ => rfl
        overflows := fun _ minus => absurd minus plus
        rest := absurd zero }
  · rw [if_neg zero]
    by_cases small : a.toInt.tdiv b.toInt < 0x8000_0000_0000_0000
    · have other := (tdiv_lt_iff zero).1 small
      have within : (a.toInt.tmod b.toInt).natAbs < b.toInt.natAbs := by
        rw [Int.natAbs_tmod]
        exact Nat.mod_lt _ (Int.natAbs_pos.2 (toInt_ne_zero zero))
      have word : (Int64.ofInt (a.toInt.tmod b.toInt)).toInt = a.toInt.tmod b.toInt := by
        have least := b.le_toInt
        have greatest := b.toInt_lt
        exact Int64.toInt_ofInt_of_le (by omega) (by omega)
      have signed (rest : a.toInt.tmod b.toInt ≠ 0) :
          (a.toInt.tmod b.toInt).sign = a.toInt.sign := by
        rw [Int.sign_tmod, if_neg (mt Int.tmod_eq_zero_of_dvd rest)]
      rw [if_pos small, ← word, exactInt_toInt]
      rw [← word] at within signed
      refine
        { faults := iff_of_false nofun (not_or.2 ⟨zero, other⟩)
          byZero := (absurd · zero)
          overflows := fun least minus => absurd ⟨least, minus⟩ other
          rest := fun _ _ => ⟨_, rfl, ?_, within, signed⟩ }
      rw [word]
      exact Int.dvd_self_sub_tmod
    · rw [if_neg small]
      have overflow := not_not.1 (mt (tdiv_lt_iff zero).2 small)
      exact
        { faults := iff_of_true ⟨_, rfl⟩ (.inr overflow)
          byZero := (absurd · zero)
          overflows := fun _ _ => rfl
          rest := fun _ other => absurd overflow other }

/-- Operators are lawful as long as their results are not measured. -/
theorem lawful_applyBinary (op : BinaryOp) (a b : Int64) :
    Lawful a b (applyBinary op (.int a) (.int b)) op := by
  cases op with
  | add => exact isExactly_exactInt _
  | sub => exact isExactly_exactInt _
  | mul => exact isExactly_exactInt _
  | div => exact isQuotient_divide a b
  | rem => exact isRemainder_remainder a b
  | _ => trivial

/-! ## Measured results -/

/-- The operator adds, the sum is a word, and the limit of values is less than the size of one. -/
def Oversized (limits : Limits) (op : BinaryOp) (a b : Int64) : Prop :=
  op = .add ∧ (∃ w : Int64, w.toInt = a.toInt + b.toInt) ∧ limits.maxValueBytes < Value.slotBytes

theorem accept_int (limits : Limits) (w : Int64) :
    limits.accept (.int w) =
      if limits.maxValueBytes < Value.slotBytes then
        .error (.fault (.valueTooLarge Value.slotBytes limits.maxValueBytes))
      else .ok (.int w) := by
  have measured : limits.measure (.int w) =
      if limits.maxValueBytes < Value.slotBytes then
        .error (.fault (.valueTooLarge Value.slotBytes limits.maxValueBytes))
      else .ok Value.slotBytes := rfl
  rw [Limits.accept, measured]
  by_cases small : limits.maxValueBytes < Value.slotBytes
  · rw [if_pos small, if_pos small]
  · rw [if_neg small, if_neg small]

theorem applyMeasured_of_oversized {limits : Limits} {op : BinaryOp} {a b : Int64}
    (oversized : Oversized limits op a b) :
    applyMeasured limits op (.int a) (.int b) =
      .error (.fault (.valueTooLarge Value.slotBytes limits.maxValueBytes)) := by
  obtain ⟨rfl, ⟨w, sum⟩, small⟩ := oversized
  have added : applyBinary .add (.int a) (.int b) = .ok (.int w) :=
    (isExactly_exactInt _).held w sum
  rw [applyMeasured, added]
  change limits.accept (.int w) = _
  rw [accept_int, if_pos small]

theorem applyMeasured_of_not_oversized {limits : Limits} {op : BinaryOp} {a b : Int64}
    (room : ¬ Oversized limits op a b) :
    applyMeasured limits op (.int a) (.int b) = applyBinary op (.int a) (.int b) := by
  rw [applyMeasured]
  by_cases sum : op = .add
  · subst sum
    by_cases held : ∃ w : Int64, w.toInt = a.toInt + b.toInt
    · obtain ⟨w, same⟩ := held
      have added : applyBinary .add (.int a) (.int b) = .ok (.int w) :=
        (isExactly_exactInt _).held w same
      rw [added]
      change limits.accept (.int w) = _
      rw [accept_int, if_neg fun small => room ⟨rfl, ⟨w, same⟩, small⟩]
    · have overflow : applyBinary .add (.int a) (.int b) = .error (.fault .integerOverflow) :=
        (isExactly_exactInt _).overflows fun w same => held ⟨w, same⟩
      rw [overflow]
      rfl
  · simp only [if_neg sum]
    cases applyBinary op (.int a) (.int b) <;> rfl

theorem lawful_applyMeasured_iff {limits : Limits} {op : BinaryOp} {a b : Int64} :
    Lawful a b (applyMeasured limits op (.int a) (.int b)) op ↔ ¬ Oversized limits op a b := by
  constructor
  · intro lawful oversized
    rw [applyMeasured_of_oversized oversized] at lawful
    obtain ⟨rfl, ⟨w, sum⟩, -⟩ := oversized
    cases lawful.held w sum
  · intro room
    rw [applyMeasured_of_not_oversized room]
    exact lawful_applyBinary op a b

/-! ## Expressions and assignments -/

variable {setting : Setting}

/-- Count an expression and evaluate its two operands, the left one first. -/
def evalOperands (setting : Setting) (scope : Scope) (left right : Expr) :
    Metered (Value × Value) := do
  tick setting
  let l ← eval setting scope left
  let r ← eval setting scope right
  return (l, r)

/-- An operator takes both operands, the left one first, unless it is a logical one. -/
theorem eval_binary {op : BinaryOp} (both : op ≠ .and ∧ op ≠ .or) (scope : Scope)
    (left right : Expr) :
    eval setting scope (.binary op left right) = (do
      tick setting
      let l ← eval setting scope left
      let r ← eval setting scope right
      applyMeasured setting.limits op l r) := by
  rw [eval.eq_def]
  cases op with
  | and => exact absurd rfl both.1
  | or => exact absurd rfl both.2
  | _ => rfl

theorem eval_binary_of_operands {op : BinaryOp} (both : op ≠ .and ∧ op ≠ .or) {scope : Scope}
    {left right : Expr} {m after : Meter} {v w : Value}
    (ran : evalOperands setting scope left right m = (.ok (v, w), after)) :
    eval setting scope (.binary op left right) m =
      (applyMeasured setting.limits op v w, after) := by
  obtain ⟨_, m₁, ticked, ran⟩ := bind_apply_ok ran
  obtain ⟨l, m₂, leftRan, ran⟩ := bind_apply_ok ran
  obtain ⟨r, m₃, rightRan, ran⟩ := bind_apply_ok ran
  cases ran
  rw [eval_binary both, bind_apply, ticked]
  dsimp only
  rw [bind_apply, leftRan]
  dsimp only
  rw [bind_apply, rightRan]
  rfl

/-- A compound assignment comes to its operands: its place holds the one, and its right-hand side
evaluates to the other. -/
structure CompoundOperands (setting : Setting) (place : Place) (value : Expr) (st : RunState)
    (keys : List Key) (left right : Value) (ready : RunState) : Prop where
  named : st.scope.NamesStore
  free : place.root ∉ st.scope.constants
  holds : ∃ whole, st.scope.lookup place.root = .ok whole ∧ whole.getPath keys = left
  inside : checkPositions setting.limits keys = .ok ()
  evaluates : ∃ mid, place.locate setting st = (.ok keys, mid) ∧
    evaluate setting value mid = (.ok right, ready)

/-- A compound assignment fails as its operator does, or replaces by the result. -/
theorem exec_compound_of_operands {op : AssignOp} {binary : BinaryOp}
    (compound : op.binary? = some binary) {place : Place} {value : Expr} {st ready : RunState}
    {keys : List Key} {a b : Int64}
    (operands : CompoundOperands setting place value st keys (.int a) (.int b) ready) :
    exec setting (.assign place op value) st = (do
      let result ← applyMeasured setting.limits binary (.int a) (.int b)
      writing (place.write setting.limits keys .set result)
      return .next : Running Control) ready := by
  obtain ⟨whole, stands, held⟩ := operands.holds
  obtain ⟨mid, located, right⟩ := operands.evaluates
  obtain ⟨_, ticked, stepped, path⟩ := bind_ok located
  have inner : isStoreName place.root = true → keys ≠ [] := by
    rintro store rfl
    cases stands.symm.trans (operands.named.lookup store)
    cases held
  have same : ready.scope = st.scope := by
    rw [(steady_evaluate setting value).scope_eq right,
      (steady_evaluatePath [] place.path).scope_eq path, (steady_reading _).scope_eq stepped]
  have combined : combine setting.limits op (.int a) (.int b) =
      applyMeasured setting.limits binary (.int a) (.int b) := by
    rw [combine, compound]
  rw [exec_assign_eq stepped path operands.inside right, bind_apply, writing, same,
    place.write_compound operands.named (fun _ => operands.free) stands inner, held, combined]
  cases applyMeasured setting.limits binary (.int a) (.int b) with
  | error e => rfl
  | ok result =>
    change _ = (writing (place.write setting.limits keys .set result) >>= fun _ => pure .next :
      Running Control) ready
    rw [bind_apply, writing, same]
    rfl

/-- Arithmetic on words is lawful. A negated integer is exact or overflows; an operator gives two
integers one result, which an expression evaluates to and which a compound assignment goes on to
write or fails with. The result is the one that the laws ask for, unless it is a sum that goes
beyond a limit of values below the size of one integer. -/
theorem arithmetic_exact (setting : Setting) (a b : Int64) :
    (∃ result, IsExactly (-a.toInt) result ∧
      ∀ scope e m after,
        (do tick setting; eval setting scope e : Metered Value) m = (.ok (.int a), after) →
        eval setting scope (.unary .neg e) m = (result, after)) ∧
    ∀ op ∈ [BinaryOp.add, .sub, .mul, .div, .rem], ∃ result,
      (Lawful a b result op ↔ ¬ Oversized setting.limits op a b) ∧
      (Oversized setting.limits op a b →
        result = .error (.fault (.valueTooLarge Value.slotBytes setting.limits.maxValueBytes))) ∧
      (∀ scope left right m after,
        evalOperands setting scope left right m = (.ok (.int a, .int b), after) →
        eval setting scope (.binary op left right) m = (result, after)) ∧
      ∀ assignment place value st keys ready, AssignOp.binary? assignment = some op →
        CompoundOperands setting place value st keys (.int a) (.int b) ready →
        exec setting (.assign place assignment value) st = (do
          let v ← result
          writing (place.write setting.limits keys .set v)
          return .next : Running Control) ready := by
  refine ⟨⟨exactInt (-a.toInt), isExactly_exactInt _, ?negation⟩, fun op arithmetic => ?_⟩
  case negation =>
    intro scope e m after ran
    obtain ⟨_, mid, ticked, ran⟩ := bind_apply_ok ran
    rw [eval, bind_apply, ticked]
    dsimp only
    rw [bind_apply, ran]
    rfl
  have both : op ≠ .and ∧ op ≠ .or := by
    constructor <;> rintro rfl <;> simp at arithmetic
  refine ⟨applyMeasured setting.limits op (.int a) (.int b), lawful_applyMeasured_iff,
    applyMeasured_of_oversized, ?expressions, ?assignments⟩
  case expressions =>
    intro scope left right m after ran
    exact eval_binary_of_operands both ran
  case assignments =>
    intro assignment place value st keys ready compound operands
    exact exec_compound_of_operands compound operands

/-- The least integer times minus one is too great by one, in an expression and for an entry of the
store. -/
theorem arithmetic_exact_least :
    let st : RunState :=
      ⟨{ store := Dict.ofList [("a", .int ⟨-0x8000_0000_0000_0000, by decide, by decide⟩)] },
        {}⟩
    let place : Place := ⟨"ctx", [.field "a"]⟩
    let minusOne : Expr := .unary .neg (.int 1)
    (¬ Oversized Setting.offline.limits .mul .minValue (-1) ∧
        evalOperands .offline st.scope place.expr minusOne st.meter =
          (.ok (.int .minValue, .int (-1)), { steps := 4 }) ∧
        CompoundOperands .offline place minusOne st [.name "a"] (.int .minValue) (.int (-1))
          ⟨st.scope, { steps := 3 }⟩) ∧
      eval .offline st.scope (.binary .mul place.expr minusOne) st.meter =
        (.error (.fault .integerOverflow), { steps := 4 }) ∧
      exec .offline (.assign place .mul minusOne) st =
        (.error (.fault .integerOverflow), ⟨st.scope, { steps := 3 }⟩) := by
  intro st place minusOne
  have room : ¬ Oversized Setting.offline.limits .mul .minValue (-1) :=
    fun oversized => nomatch oversized.1
  have both : evalOperands .offline st.scope place.expr minusOne st.meter =
      (.ok (.int .minValue, .int (-1)), { steps := 4 }) := rfl
  have operands : CompoundOperands .offline place minusOne st [.name "a"] (.int .minValue)
      (.int (-1)) ⟨st.scope, { steps := 3 }⟩ :=
    { named := Scope.namesStore_start _
      free := List.not_mem_nil
      holds := ⟨_, rfl, rfl⟩
      inside := rfl
      evaluates := ⟨_, rfl, rfl⟩ }
  have great : ∀ w : Int64, w.toInt ≠ Int64.minValue.toInt * (-1 : Int64).toInt :=
    fun w => Int.ne_of_lt w.toInt_lt
  obtain ⟨result, lawful, -, expressions, assignments⟩ :=
    (arithmetic_exact .offline .minValue (-1)).2 .mul (by simp)
  obtain rfl := (lawful.2 room).overflows great
  exact ⟨⟨room, both, operands⟩, expressions _ _ _ _ _ both,
    assignments .mul place minusOne st _ _ rfl operands⟩

/-- Under a limit below the size of one value the sum of one and two is refused. -/
theorem not_arithmetic_exact :
    ¬ ∀ (setting : Setting) (op : BinaryOp) (a b : Int64) (scope : Scope) (left right : Expr)
      (m after : Meter), op ∈ [BinaryOp.add, .sub, .mul, .div, .rem] →
      evalOperands setting scope left right m = (.ok (.int a, .int b), after) →
      Lawful a b (eval setting scope (.binary op left right) m).1 op := by
  intro lawful
  let setting : Setting := { Setting.offline with limits := { maxValueBytes := 31 } }
  have sum := lawful setting .add 1 2 { store := Dict.empty } (.int 1) (.int 2) {}
    { steps := 3 } (by simp) rfl
  have refused : (eval setting { store := Dict.empty } (.binary .add (.int 1) (.int 2))
      {}).1 = .error (.fault (.valueTooLarge 32 31)) := rfl
  rw [refused] at sum
  cases sum.held 3 rfl

end Relay.Script

import Relay.Script.Builtin
import Relay.Script.Operator
import Relay.Proofs.Script.Conversion
import Mathlib.Data.List.Forall2

/-! # Equality and membership

Scripts compare values in two ways. The operator allows for the last bits where it compares a number
to a double, and converts an integer for that. What lists and maps hold, and what a list is searched
for, has to be the same in type and content. The operator turns to the second way for everything but
numbers, so the two part at numbers that lie in lists and maps, and nowhere else: membership and the
equality of lists and maps follow the operator as far as the pairs of their elements are compared
alike, and for a single element only then, `includes_elementwise`. Where there are no doubles both
ways ask for the identical value.
-/

namespace Relay.Script

namespace Value

/-- The operator takes the two doubles for equal. -/
def Near (x y : Float) : Prop :=
  (x - y).abs < Decimal.epsilon

/-- The operator compares the values as they are compared inside of lists and maps. Only numbers of
which one is a double may be compared otherwise. -/
def ComparedAlike : Value → Value → Prop
  | int n, float x => ¬ Near (nearestDouble n) x
  | float x, int n => ¬ Near (nearestDouble n) x
  | float x, float y => Near x y ↔ x == y
  | _, _ => True

theorem equal_eq_same_iff {a b : Value} : equal a b = a.same b ↔ a.ComparedAlike b := by
  cases a with
  | int n =>
    cases b with
    | float x => exact decide_eq_false_iff_not
    | _ => exact ⟨fun _ => trivial, fun _ => rfl⟩
  | float x =>
    cases b with
    | int n => exact decide_eq_false_iff_not
    | float y =>
      rw [Bool.eq_iff_iff]
      exact iff_congr decide_eq_true_iff Iff.rfl
    | _ => exact ⟨fun _ => trivial, fun _ => rfl⟩
  | _ => exact ⟨fun _ => by cases b <;> trivial, fun _ => by cases b <;> rfl⟩

theorem sameItems_iff {xs ys : List Value} :
    sameItems xs ys = true ↔ List.Forall₂ (fun a b => a.same b = true) xs ys := by
  induction xs generalizing ys with
  | nil => cases ys <;> simp [sameItems]
  | cons x xs ih => cases ys <;> simp [sameItems, ih]

theorem sameEntries_iff {xs ys : List (String × Value)} :
    sameEntries xs ys = true ↔
      xs.map Prod.fst = ys.map Prod.fst ∧ sameItems (xs.map Prod.snd) (ys.map Prod.snd) = true := by
  induction xs generalizing ys with
  | nil => cases ys <;> simp [sameEntries, sameItems]
  | cons x xs ih => cases ys <;> simp [sameEntries, sameItems, ih, and_assoc, and_left_comm]

/-- The operator holds between the values. -/
def Equals (a b : Value) : Prop :=
  applyBinary .eq a b = .ok (.bool true)

theorem equals_iff {a b : Value} : a.Equals b ↔ equal a b = true := by
  simp [Equals, applyBinary]

theorem list_equals_iff {xs ys : List Value} :
    (list xs).Equals (list ys) ↔ sameItems xs ys = true :=
  equals_iff

theorem map_equals_iff {xs ys : List (String × Value)} :
    (map xs).Equals (map ys) ↔
      xs.map Prod.fst = ys.map Prod.fst ∧ sameItems (xs.map Prod.snd) (ys.map Prod.snd) = true :=
  equals_iff.trans sameEntries_iff

/-- To be the same comes to the same as to be equal exactly for values that are compared alike. -/
theorem same_iff_equals {a b : Value} :
    (a.same b = true ↔ a.Equals b) ↔ a.ComparedAlike b := by
  rw [equals_iff, ← equal_eq_same_iff, ← Bool.eq_iff_iff, eq_comm]

/-- Elements that are compared alike in pairs are the same if they are equal. -/
theorem sameItems_iff_equals {xs ys : List Value}
    (alike : ∀ pair ∈ xs.zip ys, pair.1.ComparedAlike pair.2) :
    sameItems xs ys = true ↔ List.Forall₂ Equals xs ys := by
  rw [sameItems_iff, List.forall₂_iff_zip, List.forall₂_iff_zip]
  refine and_congr_right fun _ => forall₂_congr fun a b => forall_congr' fun member => ?_
  exact same_iff_equals.2 (alike (a, b) member)

/-- Among elements that are compared alike with a value, one is the same as it if one is equal. -/
theorem any_same_iff_equals {xs : List Value} {x : Value} (alike : ∀ e ∈ xs, e.ComparedAlike x) :
    (xs.any fun e => e.same x) = true ↔ ∃ e ∈ xs, e.Equals x := by
  rw [List.any_eq_true]
  refine exists_congr fun e => and_congr_right fun member => ?_
  exact same_iff_equals.2 (alike e member)

mutual

/-- Without doubles, only a value itself is the same as it. -/
theorem same_iff_eq {a : Value} (none : a.EveryFloat fun _ => False) {b : Value} :
    a.same b = true ↔ a = b := by
  cases a with
  | float x => exact none.elim
  | list xs => cases b <;> simp [same, sameItems_iff_eq none]
  | map xs => cases b <;> simp [same, sameEntries_iff_eq none]
  | _ => cases b <;> simp [same]

theorem sameItems_iff_eq {xs : List Value} (none : EveryFloatItems (fun _ => False) xs)
    {ys : List Value} : sameItems xs ys = true ↔ xs = ys := by
  cases xs with
  | nil => cases ys <;> simp [sameItems]
  | cons x xs => cases ys <;> simp [sameItems, same_iff_eq none.1, sameItems_iff_eq none.2]

theorem sameEntries_iff_eq {xs : List (String × Value)}
    (none : EveryFloatEntries (fun _ => False) xs) {ys : List (String × Value)} :
    sameEntries xs ys = true ↔ xs = ys := by
  cases xs with
  | nil => cases ys <;> simp [sameEntries]
  | cons x xs =>
    cases ys <;>
      simp [sameEntries, same_iff_eq none.1, sameEntries_iff_eq none.2, Prod.ext_iff, and_assoc]

end

theorem comparedAlike_of_floatless {a b : Value} (none : a.EveryFloat fun _ => False)
    (none' : b.EveryFloat fun _ => False) : a.ComparedAlike b := by
  cases a with
  | float x => exact none.elim
  | int n =>
    cases b with
    | float x => exact none'.elim
    | _ => trivial
  | _ => cases b <;> trivial

end Value

open Value

theorem callFunction_includes {name : String} (named : name ∈ ["contains", "includes"])
    (xs : List Value) (x : Value) :
    callFunction name [.list xs, x] = .ok (.bool (xs.any fun e => e.same x)) := by
  rcases List.mem_pair.1 named with rfl | rfl <;> rfl

/-- A list includes a value if one of its elements is the same; lists are equal if their elements
are the same in pairs, and maps if they have the same keys and the same values. The operator may be
asked instead as far as it compares these pairs alike, and of single elements in no other case. Of
values without doubles it asks that they are identical. -/
theorem includes_elementwise (xs ys : List Value) (ps qs : List (String × Value)) (a b : Value) :
    (∀ name ∈ ["contains", "includes"],
      ∃ found, callFunction name [.list xs, a] = .ok (.bool found) ∧
        (found = true ↔ ∃ e ∈ xs, e.same a = true) ∧
        ((∀ e ∈ xs, e.ComparedAlike a) → (found = true ↔ ∃ e ∈ xs, e.Equals a))) ∧
    (((list xs).Equals (list ys) ↔ List.Forall₂ (fun x y => x.same y = true) xs ys) ∧
      ((∀ pair ∈ xs.zip ys, pair.1.ComparedAlike pair.2) →
        ((list xs).Equals (list ys) ↔ List.Forall₂ Equals xs ys))) ∧
    (((map ps).Equals (map qs) ↔ ps.map Prod.fst = qs.map Prod.fst ∧
        List.Forall₂ (fun x y => x.same y = true) (ps.map Prod.snd) (qs.map Prod.snd)) ∧
      ((∀ pair ∈ (ps.map Prod.snd).zip (qs.map Prod.snd), pair.1.ComparedAlike pair.2) →
        ((map ps).Equals (map qs) ↔ ps.map Prod.fst = qs.map Prod.fst ∧
          List.Forall₂ Equals (ps.map Prod.snd) (qs.map Prod.snd)))) ∧
    ((callFunction "includes" [list [a], b] = applyBinary .eq a b ↔ a.ComparedAlike b) ∧
      (((list [a]).Equals (list [b]) ↔ a.Equals b) ↔ a.ComparedAlike b) ∧
      ∀ key, ((map [(key, a)]).Equals (map [(key, b)]) ↔ a.Equals b) ↔ a.ComparedAlike b) ∧
    (a.EveryFloat (fun _ => False) → b.EveryFloat (fun _ => False) → (a.Equals b ↔ a = b)) := by
  refine ⟨?includes, ?lists, ?maps, ?single, ?identical⟩
  case includes =>
    intro name named
    exact ⟨_, callFunction_includes named xs a, List.any_eq_true, any_same_iff_equals⟩
  case lists =>
    exact ⟨list_equals_iff.trans sameItems_iff,
      fun alike => list_equals_iff.trans (sameItems_iff_equals alike)⟩
  case maps =>
    exact ⟨map_equals_iff.trans (and_congr_right fun _ => sameItems_iff),
      fun alike => map_equals_iff.trans (and_congr_right fun _ => sameItems_iff_equals alike)⟩
  case single =>
    have item : sameItems [a] [b] = true ↔ a.same b = true := by simp [sameItems]
    refine ⟨?_, ?_, fun key => ?_⟩
    · rw [callFunction_includes (List.mem_cons_of_mem _ List.mem_cons_self), ← equal_eq_same_iff,
        eq_comm]
      simp [applyBinary]
    · rw [list_equals_iff, item, same_iff_equals]
    · rw [← @same_iff_equals a b, ← item]
      simp [map_equals_iff]
  case identical =>
    intro none none'
    rw [← same_iff_equals.2 (comparedAlike_of_floatless none none'), same_iff_eq none]

/-- An integer equals the double of the same number, and a list with the integer does not include
that double, nor does it equal the list with the double. -/
theorem not_includes_elementwise :
    (∃ e ∈ [int 1], e.Equals (float 1)) ∧
      callFunction "includes" [list [int 1], float 1] = .ok (.bool false) ∧
      ¬ (list [int 1]).Equals (list [float 1]) := by
  refine ⟨⟨int 1, List.mem_singleton_self _, equals_iff.2 ?_⟩, rfl, ?_⟩
  · decide
  · rw [equals_iff]
    decide

end Relay.Script

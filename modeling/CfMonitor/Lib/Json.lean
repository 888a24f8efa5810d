/-
  JSON values as a JavaScript program sees them after `JSON.parse`.

  Numbers are the finite doubles as rationals, and the infinities that an overlong literal becomes.
  Objects keep the order of their fields.  `trim` and `isSafeInteger` follow ECMAScript.
-/
import CfMonitor.Lib.Assoc
import Mathlib.Algebra.Group.Int.Defs
import Mathlib.Data.List.DropRight
import Mathlib.Data.Rat.Defs

namespace CfMonitor.Lib

/-- A number that `JSON.parse` can return. -/
inductive Number where
  | finite (value : ℚ)
  | infinite (negative : Bool)
  deriving DecidableEq

/-- A JSON value. -/
inductive Json where
  | null
  | bool (b : Bool)
  | num (x : Number)
  | str (s : String)
  | arr (items : List Json)
  | obj (fields : List (String × Json))

/-- The fields of an object, in order. -/
abbrev Fields := List (String × Json)

namespace Json

/-- An integer as a value. -/
def int (n : Int) : Json := .num (.finite n)

/-- `typeof value === 'string'`. -/
def str? : Option Json → Option String
  | some (.str s) => some s
  | _ => none

/-- `Array.isArray(value)`. -/
def arr? : Option Json → Option (List Json)
  | some (.arr items) => some items
  | _ => none

/-- An object that is no array. -/
def obj? : Json → Option Fields
  | .obj fields => some fields
  | _ => none

/-- `Boolean(value)`, for a field that may be missing. -/
def truthy : Option Json → Bool
  | none | some .null => false
  | some (.bool b) => b
  | some (.num (.finite x)) => decide (x ≠ 0)
  | some (.num (.infinite _)) => true
  | some (.str s) => !s.isEmpty
  | some (.arr _) | some (.obj _) => true

end Json

/-- `Number.MAX_SAFE_INTEGER`. -/
def maxSafeInteger : Int := 2 ^ 53 - 1

/-- The integer that a value is, if `Number.isSafeInteger` accepts it. -/
def safeInteger? : Option Json → Option Int
  | some (.num (.finite x)) =>
    if x.den = 1 ∧ (x.num.natAbs : Int) ≤ maxSafeInteger then some x.num else none
  | _ => none

/-- The characters that `String.prototype.trim` removes. -/
def isTrimmed (c : Char) : Bool :=
  (9 ≤ c.val && c.val ≤ 13) || c.val == 0x20 || c.val == 0xA0 || c.val == 0x1680 ||
  (0x2000 ≤ c.val && c.val ≤ 0x200A) || c.val == 0x2028 || c.val == 0x2029 || c.val == 0x202F ||
  c.val == 0x205F || c.val == 0x3000 || c.val == 0xFEFF

/-- `String.prototype.trim`. -/
def trim (s : String) : String :=
  String.ofList (((s.toList.dropWhile isTrimmed).reverse.dropWhile isTrimmed).reverse)

theorem trim_trim (s : String) : trim (trim s) = trim s := by
  have hfront : ∀ l : List Char, (List.rdropWhile isTrimmed (l.dropWhile isTrimmed)).dropWhile isTrimmed
      = List.rdropWhile isTrimmed (l.dropWhile isTrimmed) := by
    intro l
    rw [List.dropWhile_eq_self_iff]
    intro hpos
    -- What is left begins as the list does whose front was dropped.
    have hleading := List.rdropWhile_prefix isTrimmed (l := l.dropWhile isTrimmed)
    have hself := List.dropWhile_idempotent (p := isTrimmed) l
    rw [List.dropWhile_eq_self_iff] at hself
    rw [hleading.getElem hpos]
    exact hself (Nat.lt_of_lt_of_le hpos hleading.length_le)
  show String.ofList (List.rdropWhile isTrimmed ((trim s).toList.dropWhile isTrimmed)) = _
  rw [show (trim s).toList = List.rdropWhile isTrimmed (s.toList.dropWhile isTrimmed) from
    String.toList_ofList, hfront, List.rdropWhile_idempotent]
  rfl

end CfMonitor.Lib

/-!
# Types

The four types a node can have. `Ty.error` is the type of whatever could not be typed: no source
token names it and no rule accepts it.
-/

namespace ScriptTyping

inductive Ty where
  | int
  | bool
  | string
  | error
  deriving DecidableEq, Repr, Inhabited

namespace Ty

def name : Ty → String
  | int => "Int"
  | bool => "Bool"
  | string => "String"
  | error => "Error"

def isError : Ty → Bool
  | error => true
  | _ => false

/-- The type a token in a declaration stands for. The spelling is exact, and no token stands
for `Ty.error`. -/
def ofToken? (token : String) : Option Ty :=
  if token = "Int" then some int
  else if token = "Bool" then some bool
  else if token = "String" then some string
  else none

/-! ## Rules that need no operator -/

/-- Whether a variable of type `target` takes a value of type `source`: the types agree and
neither is `Ty.error`. -/
def accepts (target source : Ty) : Bool :=
  !target.isError && target == source

/-- Whether a value of this type can decide an `if` or a `while`. -/
def isCondition (ty : Ty) : Bool := ty == bool

/-- Whether a value of this type can be printed. -/
def isPrintable (ty : Ty) : Bool := !ty.isError

@[simp] theorem isError_iff {ty : Ty} : ty.isError = true ↔ ty = error := by
  cases ty <;> simp [isError]

@[simp] theorem accepts_iff {target source : Ty} :
    target.accepts source = true ↔ target ≠ error ∧ target = source := by
  cases target <;> cases source <;> decide

@[simp] theorem isCondition_iff {ty : Ty} : ty.isCondition = true ↔ ty = bool := by
  cases ty <;> decide

@[simp] theorem isPrintable_iff {ty : Ty} : ty.isPrintable = true ↔ ty ≠ error := by
  cases ty <;> decide

/-- The usable types are found by their names. -/
theorem ofToken?_name {ty : Ty} (h : ty ≠ error) : ofToken? ty.name = some ty := by
  cases ty <;> simp_all [ofToken?, name]

/-- A token names a type if it is the name of a usable one: `Error` cannot be written. -/
theorem ofToken?_eq_some_iff {token : String} {ty : Ty} :
    ofToken? token = some ty ↔ ty ≠ error ∧ token = ty.name := by
  constructor
  · intro h
    unfold ofToken? at h
    split at h
    · cases h; simp_all [name]
    · split at h
      · cases h; simp_all [name]
      · split at h
        · cases h; simp_all [name]
        · cases h
  · rintro ⟨h, rfl⟩
    exact ofToken?_name h

theorem ofToken?_isSome_iff {token : String} :
    (ofToken? token).isSome = true ↔ token ∈ ["Int", "Bool", "String"] := by
  unfold ofToken?
  split
  · simp_all
  · split
    · simp_all
    · split <;> simp_all

end Ty

end ScriptTyping

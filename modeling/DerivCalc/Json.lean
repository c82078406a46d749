/-!
# JSON values

Values of the data format in which settings are kept.  Integers and other
numbers are different values, and the fields of an object have an order, because
both show when settings are displayed or saved.
-/

namespace DerivCalc

/-- A JSON value. -/
inductive Json where
  | null
  | bool (value : Bool)
  | int (value : Int)
  | float (value : Float)
  | str (value : String)
  | arr (elements : List Json)
  | obj (fields : List (String × Json))
deriving Inhabited

namespace Json

/-- The fields of an object in order; a key occurs once. -/
abbrev Fields := List (String × Json)

namespace Fields

/-- The value of a key. -/
def get? (fields : Fields) (key : String) : Option Json := fields.lookup key

/-- Sets the value of a key: in its place if the key is there, at the end otherwise. -/
def put : Fields → String → Json → Fields
  | [], key, value => [(key, value)]
  | (k, v) :: rest, key, value =>
    if k = key then (k, value) :: rest else (k, v) :: put rest key value

/-- Sets all given fields, in order. -/
def override (fields updates : Fields) : Fields :=
  updates.foldl (fun fields field => fields.put field.1 field.2) fields

/-- A key that was set has the value it was set to. -/
theorem get?_put_self (fields : Fields) (key : String) (value : Json) :
    (fields.put key value).get? key = some value := by
  induction fields with
  | nil => simp [put, get?]
  | cons field rest ih =>
      obtain ⟨k, v⟩ := field
      simp only [put]
      split
      · rename_i hKey
        simp [get?, hKey]
      · rename_i hKey
        have hNe : (key == k) = false := beq_eq_false_iff_ne.mpr (Ne.symm hKey)
        simp only [get?, List.lookup_cons, hNe] at ih ⊢
        exact ih

/-- Setting one key leaves the others alone. -/
theorem get?_put_of_ne (fields : Fields) {key other : String} (value : Json) (h : other ≠ key) :
    (fields.put key value).get? other = fields.get? other := by
  have hOther : (other == key) = false := beq_eq_false_iff_ne.mpr h
  induction fields with
  | nil => simp [put, get?, h]
  | cons field rest ih =>
      obtain ⟨k, v⟩ := field
      simp only [put]
      split
      · rename_i hKey
        subst hKey
        simp [get?, List.lookup_cons, hOther]
      · simp only [get?, List.lookup_cons] at ih ⊢
        rw [ih]

end Fields

/-- The value counts as switched on: it is true or the number one. -/
def isOn : Json → Bool
  | bool value => value
  | int value => value == 1
  | float value => value == 1
  | _ => false

end Json

end DerivCalc

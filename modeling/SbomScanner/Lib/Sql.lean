import Mathlib.Data.List.Basic

/-!
# SQL conditions over JSON documents

The part of PostgreSQL that a `WHERE` clause over a `jsonb` column touches:

* `Truth` — SQL's three-valued logic. `none` is `NULL`; a row is kept only when its condition is
  `some true`.
* `Json` — the documents, with the operators `->`, `->>`, `#>>`, `@>` and `jsonb_exists`. Every one
  of them is strict: applied to `NULL` it gives `NULL`.

Text is `Option String`, with `none` for `NULL` again, so the operators compose without ever
turning a missing value into a string.
-/

namespace Sql

/-! ## Three-valued truth -/

/-- The value of a SQL condition; `none` is `NULL`. -/
abbrev Truth := Option Bool

def Truth.not : Truth → Truth
  | some b => some (!b)
  | none => none

/-- `OR`: true as soon as one side is, false only when both are. -/
def Truth.or : Truth → Truth → Truth
  | some true, _ => some true
  | _, some true => some true
  | some false, some false => some false
  | _, _ => none

/-- `AND`: false as soon as one side is, true only when both are. -/
def Truth.and : Truth → Truth → Truth
  | some false, _ => some false
  | _, some false => some false
  | some true, some true => some true
  | _, _ => none

def eq (x : Option String) (v : String) : Truth := x.map (fun s => s == v)

def ne (x : Option String) (v : String) : Truth := (eq x v).not

/-- `x = ANY(vs)`: the disjunction of the comparisons. -/
def eqAny (x : Option String) (vs : List String) : Truth :=
  vs.foldr (fun v acc => (eq x v).or acc) (some false)

/-- `x <> ALL(vs)`: the conjunction of the comparisons. -/
def neAll (x : Option String) (vs : List String) : Truth :=
  vs.foldr (fun v acc => (ne x v).and acc) (some true)

@[simp] theorem eq_some (s v : String) : eq (some s) v = some (s == v) := rfl

@[simp] theorem eq_none (v : String) : eq none v = none := rfl

@[simp] theorem ne_some (s v : String) : ne (some s) v = some (!(s == v)) := rfl

@[simp] theorem ne_none (v : String) : ne none v = none := rfl

theorem eqAny_some (s : String) (vs : List String) : eqAny (some s) vs = some (vs.contains s) := by
  induction vs with
  | nil => rfl
  | cons v vs ih =>
    have hfold : eqAny (some s) (v :: vs) = (eq (some s) v).or (eqAny (some s) vs) := rfl
    rw [hfold, ih, eq_some, List.contains_cons]
    cases s == v <;> cases vs.contains s <;> rfl

theorem neAll_some (s : String) (vs : List String) : neAll (some s) vs = some (!vs.contains s) := by
  induction vs with
  | nil => rfl
  | cons v vs ih =>
    have hfold : neAll (some s) (v :: vs) = (ne (some s) v).and (neAll (some s) vs) := rfl
    rw [hfold, ih, ne_some, List.contains_cons]
    cases s == v <;> cases vs.contains s <;> rfl

/-- Comparing `NULL` with the elements of a non-empty array is never true. -/
theorem eqAny_none (vs : List String) : eqAny none vs ≠ some true := by
  induction vs with
  | nil => decide
  | cons v vs ih =>
    have hfold : eqAny none (v :: vs) = Truth.or none (eqAny none vs) := rfl
    rw [hfold]
    match h : eqAny none vs with
    | some true => exact absurd h ih
    | some false => decide
    | none => decide

/-- `NULL <> ALL(vs)` is `NULL`, unless the array is empty. -/
theorem neAll_none {vs : List String} (hne : vs ≠ []) : neAll none vs ≠ some true := by
  cases vs with
  | nil => exact absurd rfl hne
  | cons v vs =>
    have hfold : neAll none (v :: vs) = Truth.and none (neAll none vs) := rfl
    rw [hfold]
    match neAll none vs with
    | some true => decide
    | some false => decide
    | none => decide

/-! ## Documents -/

/-- A `jsonb` value. Numbers are the integers; the documents of interest have no others. -/
inductive Json where
  | null
  | bool (b : Bool)
  | num (n : Int)
  | str (s : String)
  | arr (elems : List Json)
  | obj (fields : List (String × Json))

/-- JSON string escapes: the quote, the backslash and the control characters. -/
def escapeChar (c : Char) : List Char :=
  if c = '"' ∨ c = '\\' then ['\\', c]
  else if c.toNat < 32 then
    ['\\', 'u', '0', '0', Nat.digitChar (c.toNat / 16), Nat.digitChar (c.toNat % 16)]
  else [c]

/-- A JSON string literal. -/
def quote (s : String) : String := "\"" ++ String.ofList (s.toList.flatMap escapeChar) ++ "\""

mutual

/-- The text PostgreSQL prints for a composite value. -/
def Json.render : Json → String
  | .null => "null"
  | .bool b => if b then "true" else "false"
  | .num n => toString n
  | .str s => quote s
  | .arr elems => "[" ++ Json.renderElems elems ++ "]"
  | .obj fields => "\x7b" ++ Json.renderFields fields ++ "\x7d"

def Json.renderElems : List Json → String
  | [] => ""
  | [x] => x.render
  | x :: xs => x.render ++ ", " ++ Json.renderElems xs

def Json.renderFields : List (String × Json) → String
  | [] => ""
  | [(k, v)] => quote k ++ ": " ++ v.render
  | (k, v) :: rest => quote k ++ ": " ++ v.render ++ ", " ++ Json.renderFields rest

end

/-- The value as SQL text: JSON `null` is `NULL` and a string loses its quotes. -/
def Json.text : Json → Option String
  | .null => none
  | .str s => some s
  | j => some j.render

/-- `doc -> key` for a text key. -/
def arrow (doc : Option Json) (key : String) : Option Json :=
  match doc with
  | some (.obj fields) => fields.lookup key
  | _ => none

/-- `doc ->> key`. -/
def arrowText (doc : Option Json) (key : String) : Option String :=
  (arrow doc key).bind Json.text

/-- One step of a path: a key of an object, or an index of an array (negative from the end). -/
def pathStep (j : Json) (part : String) : Option Json :=
  match j with
  | .obj fields => fields.lookup part
  | .arr elems =>
    match part.toInt? with
    | some (.ofNat i) => elems[i]?
    | some (.negSucc i) => elems.reverse[i]?
    | none => none
  | _ => none

/-- `doc #> path`. -/
def path (doc : Option Json) (parts : List String) : Option Json :=
  parts.foldl (fun j part => j.bind (pathStep · part)) doc

/-- `doc #>> path`. -/
def pathText (doc : Option Json) (parts : List String) : Option String :=
  (path doc parts).bind Json.text

/-- `jsonb_exists(doc, key)`: the text is a top-level key or array element. Strict. -/
def jsonbExists (doc : Option Json) (key : String) : Truth :=
  doc.map fun
    | .obj fields => (fields.lookup key).isSome
    | .arr elems => elems.any fun | .str s => s == key | _ => false
    | .str s => s == key
    | _ => false

/-- Equality of scalars. -/
def Json.scalarEq : Json → Json → Bool
  | .null, .null => true
  | .bool a, .bool b => a == b
  | .num a, .num b => a == b
  | .str a, .str b => a == b
  | _, _ => false

mutual

/-- The document contains the value: the keys of an object, the elements of an array in any order,
and otherwise the same scalar. (That an array may also contain a scalar at the top level is left
out: the value is an array here.) -/
def Json.containedIn : Json → Json → Bool
  | .obj fields, .obj docFields => Json.fieldsIn fields docFields
  | .arr elems, .arr docElems => Json.elemsIn elems docElems
  | value, doc => value.scalarEq doc

def Json.elemsIn : List Json → List Json → Bool
  | [], _ => true
  | x :: xs, docElems => (docElems.any fun d => x.containedIn d) && Json.elemsIn xs docElems

def Json.fieldsIn : List (String × Json) → List (String × Json) → Bool
  | [], _ => true
  | (k, v) :: rest, docFields =>
    (match docFields.lookup k with
      | some d => v.containedIn d
      | none => false) && Json.fieldsIn rest docFields

end

/-- `doc @> value`. Strict. -/
def contains (doc : Option Json) (value : Json) : Truth := doc.map value.containedIn

@[simp] theorem arrow_obj (fields : List (String × Json)) (key : String) :
    arrow (some (.obj fields)) key = fields.lookup key := rfl

@[simp] theorem jsonbExists_obj (fields : List (String × Json)) (key : String) :
    jsonbExists (some (.obj fields)) key = some (fields.lookup key).isSome := rfl

@[simp] theorem path_nil (doc : Option Json) : path doc [] = doc := rfl

@[simp] theorem path_cons (doc : Option Json) (part : String) (parts : List String) :
    path doc (part :: parts) = path (doc.bind (pathStep · part)) parts := rfl

@[simp] theorem pathStep_obj (fields : List (String × Json)) (part : String) :
    pathStep (.obj fields) part = fields.lookup part := rfl

end Sql

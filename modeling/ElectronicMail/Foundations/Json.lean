import Mathlib.Data.List.Basic

/-!
# JSON values

A parsed JSON value as the source language holds it: a dictionary keeps its fields in
order and `get` is `dict.get`, which answers `None` for what is no dictionary. `dumps`
is `json.dumps` with `ensure_ascii`.
-/

namespace ElectronicMail.Foundations

inductive Json where
  | null
  | bool (value : Bool)
  | number (value : Int)
  | text (value : String)
  | list (items : List Json)
  | dict (fields : List (String × Json))

/-- `value.get(key)` of a dictionary, `None` for a missing key or another value. -/
def Json.get (key : String) : Json → Json
  | .dict fields => (fields.lookup key).getD .null
  | _ => .null

/-- `value[key]`, which raises for a missing key and for what is no dictionary. -/
def Json.item (key : String) : Json → Option Json
  | .dict fields => fields.lookup key
  | _ => none

def Json.truthy : Json → Bool
  | .null => false
  | .bool value => value
  | .number value => value ≠ 0
  | .text value => value ≠ ""
  | .list items => !items.isEmpty
  | .dict fields => !fields.isEmpty

/-- `isinstance(value, str) and value`. -/
def Json.isNonemptyText : Json → Bool
  | .text value => value ≠ ""
  | _ => false

/-! ## `json.dumps` -/

/-- The escape `\\uXXXX` of a code unit. -/
def escapeUnit (unit : Nat) : List Char :=
  let digits := Nat.toDigits 16 unit
  ['\\', 'u'] ++ List.replicate (4 - digits.length) '0' ++ digits

/-- A character inside a string; beyond the basic plane it takes a surrogate pair. -/
def escapeChar (c : Char) : List Char :=
  if c = '"' then ['\\', '"']
  else if c = '\\' then ['\\', '\\']
  else if c = '\n' then ['\\', 'n']
  else if c = '\r' then ['\\', 'r']
  else if c = '\t' then ['\\', 't']
  else if c.toNat = 8 then ['\\', 'b']
  else if c.toNat = 12 then ['\\', 'f']
  else if 32 ≤ c.toNat ∧ c.toNat ≤ 126 then [c]
  else if c.toNat < 0x10000 then escapeUnit c.toNat
  else
    let offset := c.toNat - 0x10000
    escapeUnit (0xd800 + offset / 0x400) ++ escapeUnit (0xdc00 + offset % 0x400)

def dumpsText (text : String) : String :=
  String.ofList (['"'] ++ text.toList.flatMap escapeChar ++ ['"'])

mutual

/-- `json.dumps(value, ensure_ascii=True)`. -/
def Json.dumps : Json → String
  | .null => "null"
  | .bool value => if value then "true" else "false"
  | .number value => toString value
  | .text value => dumpsText value
  | .list items => "[" ++ ", ".intercalate (dumpsItems items) ++ "]"
  | .dict fields => "\x7b" ++ ", ".intercalate (dumpsFields fields) ++ "\x7d"

def dumpsItems : List Json → List String
  | [] => []
  | item :: items => item.dumps :: dumpsItems items

def dumpsFields : List (String × Json) → List String
  | [] => []
  | field :: fields => dumpsField field :: dumpsFields fields

def dumpsField : String × Json → String
  | (key, value) => dumpsText key ++ ": " ++ value.dumps

end

end ElectronicMail.Foundations

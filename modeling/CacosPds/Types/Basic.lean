import Mathlib.Data.List.Basic
/-!
# Shared vocabulary

| here | there |
| --- | --- |
| `Bytes`    | `Vec<u8>` |
| `Cid`      | `lexicon_cid::Cid`, by its text form: every table stores `cid.to_string()` and `Cid::from_str` inverts it |
| `PdsError` | `cacos-pds-core/src/error.rs:21` |
-/
namespace CacosPds

abbrev Bytes := List UInt8

@[ext] structure Cid where
  text : String
  deriving DecidableEq, Repr

/-- A character of a text in `{:?}`. Those past ASCII stand for themselves here; of them Rust escapes the
ones that it takes for unprintable. -/
def debugChar (c : Char) : List Char :=
  if c = '"' ∨ c = '\\' then ['\\', c]
  else if c = '\t' then ['\\', 't']
  else if c = '\r' then ['\\', 'r']
  else if c = '\n' then ['\\', 'n']
  else if c.toNat = 0 then ['\\', '0']
  else if c.toNat < 32 ∨ c.toNat = 127 then
    ("\\u\x7b" ++ String.ofList (Nat.toDigits 16 c.toNat) ++ "\x7d").toList
  else [c]

/-- `{:?}` of a text. -/
def debugStr (s : String) : String := "\"" ++ String.ofList (s.toList.flatMap debugChar) ++ "\""

/-- `PdsError`; `source` is the text of the wrapped `anyhow` error. -/
inductive PdsError where
  | database (err : String)
  | internal (reason source : String)
  | notFound (what : String)
  | invalidInput (what : String)
  deriving DecidableEq, Repr

/-- The `Display` text (the `#[error]` attributes). -/
def PdsError.display : PdsError → String
  | .database e => "database error: " ++ e
  | .internal reason _ => reason
  | .notFound w => "not found: " ++ w
  | .invalidInput w => "invalid input: " ++ w

/-- `From<anyhow::Error> for PdsError` (`error.rs:71`), the `?` on a helper that returns `anyhow`. -/
def PdsError.ofAnyhow (err : String) : PdsError := .internal "wrapped anyhow error" err

end CacosPds

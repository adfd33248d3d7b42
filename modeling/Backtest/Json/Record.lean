import Backtest.Json.Basic

namespace Backtest
namespace Json

def text? : Json → Option String
  | text s => some s
  | _ => none

def bool? : Json → Option Bool
  | bool b => some b
  | _ => none

def number? : Json → Option Float
  | integer n => some (Float.ofInt n)
  | number x => some x
  | _ => none

def integer? (lo hi : Int) : Json → Option Int
  | integer n => if lo ≤ n && n ≤ hi then some n else none
  | _ => none

def natural? (bits : Nat) (j : Json) : Option Nat :=
  (integer? 0 ((1 <<< bits : Nat) - 1) j).map Int.toNat

def list? {β : Type} (f : Json → Option β) : Json → Option (List β)
  | array items => items.mapM f
  | _ => none

def absent? {β : Type} (f : Json → Option β) : Json → Option (Option β)
  | null => some none
  | j => (f j).map some

/-- Puts a value under its name, in the order of names; a value there already gives way. -/
def insertNamed {β : Type} (name : String) (x : β) : List (String × β) → List (String × β)
  | [] => [(name, x)]
  | entry :: rest =>
    if name < entry.1 then (name, x) :: entry :: rest
    else if name = entry.1 then (name, x) :: rest
    else entry :: insertNamed name x rest

/-- Values by name, in the order of names; of repeated names the last one counts. -/
def named? {β : Type} (f : Json → Option β) : Json → Option (List (String × β))
  | object members => do
    let read ← members.mapM fun m => (f m.2).map (m.1, ·)
    some (read.foldl (fun out m => insertNamed m.1 m.2 out) [])
  | _ => none

/-- One of several alternatives with its content: a lone text has none. -/
def variant? : Json → Option (String × Json)
  | text name => some (name, null)
  | object [(name, content)] => some (name, content)
  | _ => none

def choice? {β : Type} (names : List (String × β)) (j : Json) : Option β :=
  match variant? j with
  | some (name, null) => names.lookup name
  | _ => none

structure Record where
  members : List (String × Json)

namespace Record

def distinct : List String → Bool
  | [] => true
  | name :: rest => !rest.contains name && distinct rest

def of? (names : List String) : Json → Option Record
  | object members =>
    let written := members.map (·.1)
    if written.all names.contains && distinct written then some ⟨members⟩ else none
  | array items => if items.length ≤ names.length then some ⟨names.zip items⟩ else none
  | _ => none

def required {β : Type} (r : Record) (name : String) (f : Json → Option β) : Option β :=
  (r.members.lookup name).bind f

def optional {β : Type} (r : Record) (name : String) (default : β) (f : Json → Option β) : Option β :=
  match r.members.lookup name with
  | some j => f j
  | none => some default

end Record
end Json
end Backtest

/-!
# Ordered entries

The members of an object in the order in which they stand. Inserting under a key that is present
replaces the value in place; inserting under a new key appends.
-/

namespace StateFlow

/-- Named values in a fixed order. -/
abbrev Entries (α : Type) := List (String × α)

namespace Entries

variable {α β : Type}

def keys (entries : Entries α) : List String :=
  entries.map Prod.fst

def get? : Entries α → String → Option α
  | [], _ => none
  | (k, v) :: rest, key => if k = key then some v else get? rest key

def has (entries : Entries α) (key : String) : Bool :=
  (get? entries key).isSome

/-- Puts a value under a name: in place if the name is present, at the end otherwise. -/
def insert : Entries α → String → α → Entries α
  | [], key, value => [(key, value)]
  | (k, v) :: rest, key, value =>
    if k = key then (key, value) :: rest else (k, v) :: insert rest key value

def extend (entries more : Entries α) : Entries α :=
  more.foldl (fun acc entry => insert acc entry.1 entry.2) entries

/-- The entries of a list of pairs: a repeated name keeps its first place and its last value. -/
def ofPairs (pairs : List (String × α)) : Entries α :=
  extend [] pairs

def filterKeys (p : String → Bool) (entries : Entries α) : Entries α :=
  entries.filter fun entry => p entry.1

def mapValues (f : α → β) (entries : Entries α) : Entries β :=
  entries.map fun entry => (entry.1, f entry.2)

def Distinct (entries : Entries α) : Prop :=
  (keys entries).Nodup

end Entries

end StateFlow

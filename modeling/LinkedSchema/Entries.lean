/-! Named entries in order, as in a JSON object. -/
namespace LinkedSchema

/-- Entries of which no two have the same name. -/
abbrev Entries (α : Type) := List (String × α)

namespace Entries

/-- Gives a name a value. A name that is there keeps its place, and a new one goes to the end. -/
def put {α : Type} : Entries α → String → α → Entries α
  | [], name, value => [(name, value)]
  | (other, old) :: rest, name, value =>
    if other == name then (other, value) :: rest else (other, old) :: put rest name value

/-- Puts the entries of the second list into the first, one after the other. -/
def merge {α : Type} (entries more : Entries α) : Entries α :=
  more.foldl (fun done e => done.put e.1 e.2) entries

theorem lookup_put_self {α : Type} (entries : Entries α) (name : String) (value : α) :
    (entries.put name value).lookup name = some value := by
  induction entries with
  | nil => simp [put]
  | cons e rest ih =>
    obtain ⟨key, old⟩ := e
    by_cases h : key = name
    · simp [put, h]
    · have other : (name == key) = false := by simpa using Ne.symm h
      simp [put, h, List.lookup_cons, other, ih]

theorem lookup_put_ne {α : Type} (entries : Entries α) {name other : String} (h : other ≠ name)
    (value : α) : (entries.put name value).lookup other = entries.lookup other := by
  have differs : (other == name) = false := by simpa using h
  induction entries with
  | nil => simp [put, List.lookup_cons, differs]
  | cons e rest ih =>
    obtain ⟨key, old⟩ := e
    by_cases he : key = name
    · subst he
      simp [put, List.lookup_cons, differs]
    · simp [put, he, List.lookup_cons, ih]

def names {α : Type} (entries : Entries α) : List String := entries.map (·.1)

end Entries
end LinkedSchema

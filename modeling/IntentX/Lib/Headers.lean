import Mathlib.Data.List.Basic

/-!
# Header maps

A header map keeps every value of a name, in the order in which they were appended, and reads the
first.  `insert` replaces what was there; `append` adds behind it, so a value that came first stays
the one that is read (`get_append_of_some`).
-/

namespace Lib

/-- Names with values, in the order in which they came. -/
abbrev Headers (ν : Type) := List (String × ν)

namespace Headers

variable {ν : Type}

/-- The first value of the name. -/
def get (hs : Headers ν) (name : String) : Option ν := (hs.find? fun h => h.1 == name).map (·.2)

/-- The value takes the place of every other one of the name. -/
def insert (hs : Headers ν) (name : String) (v : ν) : Headers ν :=
  hs.filter (fun h => h.1 != name) ++ [(name, v)]

def append (hs : Headers ν) (name : String) (v : ν) : Headers ν := hs ++ [(name, v)]

/-- What is left without the names of a list. -/
def without (hs : Headers ν) (names : List String) : Headers ν :=
  hs.filter fun h => !names.contains h.1

variable {hs : Headers ν} {name other : String} {v w : ν} {names : List String}

theorem get_append_of_some (h : hs.get name = some w) : (hs.append other v).get name = some w := by
  obtain ⟨e, he, rfl⟩ := Option.map_eq_some_iff.1 h
  unfold get append
  rw [List.find?_append, he]
  rfl

theorem get_append_of_none (h : hs.get name = none) : (hs.append name v).get name = some v := by
  unfold get append at *
  rw [List.find?_append, Option.map_eq_none_iff.1 h]
  simp

theorem get_append_ne (h : other ≠ name) : (hs.append other v).get name = hs.get name := by
  have hne : (other == name) = false := beq_eq_false_iff_ne.2 h
  unfold get append
  rw [List.find?_append]
  rcases hf : hs.find? fun h => h.1 == name with _ | e <;> simp [hne]

@[simp] theorem get_insert_self : (hs.insert name v).get name = some v := by
  have hgone : (hs.filter fun h => h.1 != name).find? (fun h => h.1 == name) = none := by
    rw [List.find?_eq_none]
    intro h hh heq
    have hne := (List.mem_filter.1 hh).2
    simp_all
  unfold get insert
  rw [List.find?_append, hgone]
  simp

/-- A filter that keeps a name keeps what is read of it. -/
theorem get_filter {p : String × ν → Bool} (hp : ∀ e ∈ hs, e.1 = name → p e = true) :
    get (hs.filter p) name = hs.get name := by
  unfold get
  congr 1
  induction hs with
  | nil => rfl
  | cons e hs ih =>
    have ih := ih fun e' he' => hp e' (List.mem_cons_of_mem e he')
    rw [List.filter_cons]
    by_cases hname : e.1 = name
    · rw [if_pos (hp e List.mem_cons_self hname), List.find?_cons, List.find?_cons, hname, beq_self_eq_true]
    · have hne : (e.1 == name) = false := beq_eq_false_iff_ne.2 hname
      split
      · rw [List.find?_cons, List.find?_cons, hne, ih]
      · rw [ih, List.find?_cons, hne]

theorem get_insert_ne (h : other ≠ name) : (hs.insert other v).get name = hs.get name := by
  have hkeep : get (hs.filter fun e => e.1 != other) name = hs.get name :=
    get_filter fun e _ he => by simpa [he] using fun hn : name = other => h hn.symm
  have hlast : (Headers.append (hs.filter fun e => e.1 != other) other v).get name = _ := get_append_ne h
  exact hlast.trans hkeep

theorem get_without (h : name ∉ names) : (hs.without names).get name = hs.get name :=
  get_filter fun e _ he => by simpa [he] using h

theorem get_without_self : (hs.without [name]).get name = none := by
  unfold get without
  rw [Option.map_eq_none_iff, List.find?_eq_none]
  intro e he heq
  have hne := (List.mem_filter.1 he).2
  simp_all

end Headers

end Lib

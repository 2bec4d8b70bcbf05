/-!
# Queue — first in, first out

Two lists, the second one reversed, and the number of elements.  `toList` is the queue as a list,
first element first; every operation is described by what it does to that list.
-/

namespace Cartridge

/-- A queue: elements leave in the order in which they came. -/
structure Queue (α : Type) where
  front : List α
  /-- The elements behind the front, last one first. -/
  back : List α
  /-- The number of elements. -/
  size : Nat
  size_eq : size = front.length + back.length := by simp

namespace Queue

variable {α : Type}

/-- The elements in the order in which they leave. -/
def toList (q : Queue α) : List α :=
  q.front ++ q.back.reverse

/-- A queue with the elements of a list. -/
def ofList (xs : List α) : Queue α :=
  { front := xs, back := [], size := xs.length }

/-- The queue with one more element at its end. -/
def push (q : Queue α) (a : α) : Queue α :=
  { q with
    back := a :: q.back
    size := q.size + 1
    size_eq := by simp [q.size_eq, Nat.add_assoc] }

/-- The queue with the elements of a list at its end. -/
def pushAll (q : Queue α) (xs : List α) : Queue α :=
  xs.foldl push q

/-- The first element and the others. -/
def pop? (q : Queue α) : Option (α × Queue α) :=
  match q with
  | ⟨a :: rest, back, size, size_eq⟩ =>
    some (a, { front := rest, back, size := size - 1, size_eq := by simp at size_eq; omega })
  | ⟨[], back, _, _⟩ =>
    match back.reverse with
    | a :: rest => some (a, ofList rest)
    | [] => none

/-- The elements that satisfy a test, in their order. -/
def filter (p : α → Bool) (q : Queue α) : Queue α :=
  let front := q.front.filter p
  let back := q.back.filter p
  { front, back, size := front.length + back.length, size_eq := rfl }

theorem length_toList (q : Queue α) : q.toList.length = q.size := by
  simp [toList, q.size_eq]

@[simp] theorem toList_ofList (xs : List α) : (ofList xs).toList = xs := by
  simp [ofList, toList]

@[simp] theorem toList_push (q : Queue α) (a : α) : (q.push a).toList = q.toList ++ [a] := by
  simp [push, toList]

@[simp] theorem toList_pushAll (q : Queue α) (xs : List α) :
    (q.pushAll xs).toList = q.toList ++ xs := by
  induction xs generalizing q with
  | nil => simp [pushAll]
  | cons a xs ih =>
    have h := ih (q.push a)
    simp only [pushAll, List.foldl_cons] at h ⊢
    rw [h, toList_push, List.append_assoc, List.singleton_append]

@[simp] theorem size_pushAll (q : Queue α) (xs : List α) :
    (q.pushAll xs).size = q.size + xs.length := by
  rw [← length_toList, toList_pushAll, List.length_append, length_toList]

@[simp] theorem toList_filter (p : α → Bool) (q : Queue α) :
    (q.filter p).toList = q.toList.filter p := by
  simp [filter, toList]

theorem pop?_eq_none_iff {q : Queue α} : q.pop? = none ↔ q.toList = [] := by
  obtain ⟨front, back, size, size_eq⟩ := q
  cases front with
  | cons a rest => simp [pop?, toList]
  | nil =>
    cases h : back.reverse with
    | nil => simp [pop?, toList, h]
    | cons a rest => simp [pop?, toList, h]

theorem toList_of_pop {q rest : Queue α} {a : α} (h : q.pop? = some (a, rest)) :
    q.toList = a :: rest.toList := by
  obtain ⟨front, back, size, size_eq⟩ := q
  cases front with
  | cons b tail =>
    simp only [pop?, Option.some.injEq, Prod.mk.injEq] at h
    obtain ⟨rfl, rfl⟩ := h
    simp [toList]
  | nil =>
    cases hb : back.reverse with
    | nil => simp [pop?, hb] at h
    | cons b tail =>
      simp only [pop?, hb, Option.some.injEq, Prod.mk.injEq] at h
      obtain ⟨rfl, rfl⟩ := h
      simp [toList, hb, ofList]

theorem size_of_pop {q rest : Queue α} {a : α} (h : q.pop? = some (a, rest)) :
    q.size = rest.size + 1 := by
  rw [← length_toList, ← length_toList, toList_of_pop h, List.length_cons]

end Queue

end Cartridge

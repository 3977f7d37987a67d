/-!
Rows: lists that lose items at the front and gain them at the back.

A row has its last item at hand and keeps the others in two halves, the later
one in reverse, so that both ends are reached without walking along the row.
`Row.toList` is the row in order, and every operation is told by what it does
to that list: `toList_push`, `toList_setLast`, `toList_dropWhile`.
-/

namespace Bulwark

/-- A list whose ends are both at hand. -/
inductive Row (α : Type) where
  | empty
  /-- The front half in order, the later half in reverse, and the last item. -/
  | full (front back : List α) (last : α)
  deriving DecidableEq, Repr, Inhabited

namespace Row

variable {α : Type}

def toList : Row α → List α
  | empty => []
  | full front back last => front ++ back.reverse ++ [last]

def last? : Row α → Option α
  | empty => none
  | full _ _ last => some last

def push (r : Row α) (a : α) : Row α :=
  match r with
  | empty => full [] [] a
  | full front back last => full front (last :: back) a

def setLast (r : Row α) (a : α) : Row α :=
  match r with
  | empty => empty
  | full front back _ => full front back a

/-- Drops items at the front, up to the first that is to be kept. -/
def dropWhile (p : α → Bool) : Row α → Row α
  | empty => empty
  | full front back last =>
    match front.dropWhile p with
    | a :: rest => full (a :: rest) back last
    | [] =>
      match back.reverse.dropWhile p with
      | a :: rest => full (a :: rest) [] last
      | [] => if p last then empty else full [] [] last

@[simp] theorem toList_empty : (empty : Row α).toList = [] := rfl

@[simp] theorem toList_push (r : Row α) (a : α) : (r.push a).toList = r.toList ++ [a] := by
  cases r <;> simp [push, toList]

theorem toList_setLast (r : Row α) (a : α) :
    (r.setLast a).toList = if r.toList = [] then [] else r.toList.dropLast ++ [a] := by
  cases r with
  | empty => rfl
  | full front back last => simp [setLast, toList]

theorem last?_eq_getLast? (r : Row α) : r.last? = r.toList.getLast? := by
  cases r <;> simp [last?, toList]

/-- What is dropped from two lists, one after the other. -/
private theorem dropWhile_two (p : α → Bool) (xs ys : List α) :
    (xs ++ ys).dropWhile p =
      if xs.dropWhile p = [] then ys.dropWhile p else xs.dropWhile p ++ ys := by
  rw [List.dropWhile_append]
  simp only [List.isEmpty_iff]

@[simp] theorem toList_dropWhile (p : α → Bool) (r : Row α) :
    (r.dropWhile p).toList = r.toList.dropWhile p := by
  cases r with
  | empty => rfl
  | full front back last =>
    simp only [dropWhile, toList, List.append_assoc, dropWhile_two p front,
      dropWhile_two p back.reverse]
    cases front.dropWhile p with
    | cons a rest => simp
    | nil =>
      cases back.reverse.dropWhile p with
      | cons a rest => simp
      | nil => cases dropped : p last <;> simp [dropped]

end Row

end Bulwark

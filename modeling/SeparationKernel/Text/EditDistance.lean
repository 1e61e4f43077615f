/-! How many single edits lead from one text to another, where an edit inserts, removes or replaces
a character, or exchanges two neighbours. Further edits may come between exchanged neighbours. -/
namespace SeparationKernel.Text

def cell (rows : Array (Array Nat)) (i j : Nat) : Nat := (rows.getD i #[]).getD j 0

/-- The least number of edits from the first `i + 1` characters of a text, the last of them `x`, to
the first `j + 1` of another, the last of them `y`, when those for shorter parts are known: the rows
for fewer characters of the one, and this row up to here. The places, counted from one, of the last
`y` before `x` in the one and of the last `x` before `y` in the other are `k` and `l`, or zero if
there is none. An exchange of neighbours reaches back to them. -/
def editCost (rows : Array (Array Nat)) (row : Array Nat) (i j k l : Nat) (x y : Char) : Nat :=
  let step := min (min (row.getD j 0 + 1) (cell rows i (j + 1) + 1))
    (cell rows i j + if x = y then 0 else 1)
  if k = 0 ∨ l = 0 then step else min step (cell rows (k - 1) (l - 1) + (i - k) + 1 + (j - l))

def nextRow (b : List Char) (rows : Array (Array Nat)) (places : List (Char × Nat)) (i : Nat)
    (x : Char) : Array Nat :=
  (b.zipIdx.foldl
    (fun (row, l) (y, j) =>
      let k := (places.lookup y).getD 0
      (row.push (editCost rows row i j k l x y), if x = y then j + 1 else l))
    (#[i + 1], 0)).1

def editDistance (a b : List Char) : Nat :=
  let (rows, _) := a.zipIdx.foldl
    (fun (rows, places) (x, i) =>
      (rows.push (nextRow b rows places i x), (x, i + 1) :: places.filter (·.1 ≠ x)))
    (#[Array.range (b.length + 1)], [])
  cell rows a.length b.length

end SeparationKernel.Text

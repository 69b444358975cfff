/-!
# Similarity of words

Two words are similar when they share most of their letters in nearly the same order. A letter of
one word is paired with the first unpaired equal letter of the other that stands close to its place.
The score is the mean of three ratios: the paired share of either word, and the share of pairs that
keep their order.

## Main definitions

- `Similarity.paired`: the paired letters of two words, in the order of each.
- `Similarity.score`: a number between zero and one.
-/

namespace TreeManifest.Similarity

/-- Marks the first unmarked letter that equals `char` and stands at a place from `low` to `high`,
if there is one. `place` is the place of the first letter. -/
def mark (char : Char) (low high place : Nat) : List (Char × Bool) → Option (List (Char × Bool))
  | [] => none
  | (other, marked) :: rest =>
    if !marked && char == other && low ≤ place && place ≤ high then some ((other, true) :: rest)
    else (mark char low high (place + 1) rest).map ((other, marked) :: ·)

/-- Pairs the letters of the first word with those of the second. Returns the paired letters of the
first word and the second word with its marks. `reach` is how far apart paired letters may stand. -/
def pairLetters (reach place : Nat) (second : List (Char × Bool)) :
    List Char → List Char × List (Char × Bool)
  | [] => ([], second)
  | char :: rest =>
    match mark char (place - reach) (place + reach) 0 second with
    | some marked =>
      let (letters, marks) := pairLetters reach (place + 1) marked rest
      (char :: letters, marks)
    | none => pairLetters reach (place + 1) second rest

/-- How far apart paired letters of words with the given lengths may stand. -/
def reach (first second : Nat) : Nat := max first second / 2 - 1

def paired (first second : List Char) : List Char × List Char :=
  let (letters, marks) :=
    pairLetters (reach first.length second.length) 0 (second.map (·, false)) first
  (letters, (marks.filter (·.2)).map Prod.fst)

def score (first second : List Char) : Rat :=
  let (letters, others) := paired first second
  let pairs := letters.length
  if pairs = 0 then 0
  else
    let displaced := (letters.zip others).countP fun (a, b) => a != b
    ((pairs : Rat) / first.length + (pairs : Rat) / second.length +
      ((pairs - displaced / 2 : Nat) : Rat) / pairs) / 3

end TreeManifest.Similarity

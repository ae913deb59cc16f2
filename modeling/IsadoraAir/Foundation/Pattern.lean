import IsadoraAir.Foundation.TextLines
import Mathlib.Data.List.Range

/-!
# Search patterns

A pattern with the positions at which it can end, in the order a backtracking
matcher tries them: the first alternative first, a run of characters longest
first. `isWord` are the characters of `\w`.
-/

namespace IsadoraAir

inductive Pattern where
  | empty
  | one (p : CodePoint → Bool)
  | many (p : CodePoint → Bool)
  | boundary
  | atEnd
  | seq (first second : Pattern)
  | alt (first second : Pattern)

namespace Pattern

def opt (pattern : Pattern) : Pattern := .alt pattern .empty

/-- `[...]+` -/
def some1 (p : CodePoint → Bool) : Pattern := .seq (.one p) (.many p)

/-- The length of the run of characters from `i` on. -/
def runLength (p : CodePoint → Bool) (text : Text) (i : ℕ) : ℕ :=
  ((text.drop i).takeWhile p).length

def wordAt (isWord : CodePoint → Bool) (text : Text) (i : ℕ) : Bool := text[i]?.any isWord

def wordBefore (isWord : CodePoint → Bool) (text : Text) : ℕ → Bool
  | 0 => false
  | i + 1 => wordAt isWord text i

/-- Where a match that begins at a position can end. -/
def ends (isWord : CodePoint → Bool) (text : Text) : Pattern → ℕ → List ℕ
  | .empty, i => [i]
  | .one p, i => if text[i]?.any p then [i + 1] else []
  | .many p, i => ((List.range (runLength p text i + 1)).map (i + ·)).reverse
  | .boundary, i => if wordBefore isWord text i = wordAt isWord text i then [] else [i]
  | .atEnd, i =>
    if i = text.length ∨ i + 1 = text.length ∧ text[i]? = some Text.lf then [i] else []
  | .seq first second, i => (ends isWord text first i).flatMap (ends isWord text second)
  | .alt first second, i => ends isWord text first i ++ ends isWord text second i

def matchAt (isWord : CodePoint → Bool) (pattern : Pattern) (text : Text) (i : ℕ) : Option ℕ :=
  (pattern.ends isWord text i).head?

/-- The scan of `finditer` over the starts, from where the last match ended. -/
def scan (isWord : CodePoint → Bool) (pattern : Pattern) (text : Text) :
    List ℕ → ℕ → List (ℕ × ℕ)
  | [], _ => []
  | start :: starts, resume =>
    if start < resume then scan isWord pattern text starts resume
    else
      match pattern.matchAt isWord text start with
      | none => scan isWord pattern text starts resume
      | some stop => (start, stop) :: scan isWord pattern text starts stop

/-- Whether every match takes at least one character. -/
def advances : Pattern → Bool
  | .one _ => true
  | .seq first second => first.advances || second.advances
  | .alt first second => first.advances && second.advances
  | _ => false

/-- `pattern.finditer(text)` of a pattern that advances. -/
def findIter (isWord : CodePoint → Bool) (pattern : Pattern) (text : Text) : List (ℕ × ℕ) :=
  scan isWord pattern text (List.range' 0 (text.length + 1)) 0

/-- `pattern.search(text)` -/
def search (isWord : CodePoint → Bool) (pattern : Pattern) (text : Text) : Option (ℕ × ℕ) :=
  (pattern.findIter isWord text).head?

/-- `text[start:stop]` -/
def slice (text : Text) (start stop : ℕ) : Text := (text.take stop).drop start

def pieces (text : Text) : ℕ → List (ℕ × ℕ) → List Text
  | resume, [] => [text.drop resume]
  | resume, (start, stop) :: found => slice text resume start :: pieces text stop found

/-- `pattern.split(text)` of a pattern that advances. -/
def split (isWord : CodePoint → Bool) (pattern : Pattern) (text : Text) : List Text :=
  pieces text 0 (pattern.findIter isWord text)

/-- A match at a position of `lead` and then `group`: where the group starts and ends. -/
def matchGroup (isWord : CodePoint → Bool) (lead group : Pattern) (text : Text) (i : ℕ) :
    Option (ℕ × ℕ) :=
  (lead.ends isWord text i).findSome? fun start =>
    (group.matchAt isWord text start).map (start, ·)

def searchGroup (isWord : CodePoint → Bool) (lead group : Pattern) (text : Text) :
    Option (ℕ × ℕ) :=
  (List.range (text.length + 1)).findSome? (matchGroup isWord lead group text)

/-! ## What a split leaves -/

variable {isWord : CodePoint → Bool} {pattern : Pattern} {text piece : Text} {c : CodePoint}

end Pattern

end IsadoraAir

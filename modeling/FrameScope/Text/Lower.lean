import FrameScope.Text.Letter

/-!
# Lower case

Each character goes to its own lower case, except a capital sigma at the end of a word: it becomes
the final sigma.

* `lower`: the lower case of a text;
* `isWordEnd`: whether a place between two texts is behind the last letter of a word.
-/

namespace FrameScope.Text

/-- Whether the first character that is not case-ignorable has a case. -/
def meetsCased (cs : List Char) : Bool :=
  match cs.dropWhile isCaseIgnorable with
  | c :: _ => isCased c
  | [] => false

/-- Whether the text behind goes on no word that the text before, given from its end, has begun. -/
def isWordEnd (before behind : List Char) : Bool := meetsCased before && !meetsCased behind

/-- The lower case of a text that follows the characters `before`, the nearest first. -/
def lowerFrom (before : List Char) : List Char → List Char
  | [] => []
  | c :: rest =>
    (if c = 'Σ' then [if isWordEnd before rest then 'ς' else 'σ'] else lowerOf c)
      ++ lowerFrom (c :: before) rest

def lower (cs : List Char) : List Char := lowerFrom [] cs

end FrameScope.Text

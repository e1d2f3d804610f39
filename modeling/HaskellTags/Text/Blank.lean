/-!
# Blanks

The blank characters, trimming, and the one-line form of a text: every run of
blanks becomes one space and none is left at either end.
-/

namespace HaskellTags
namespace Text

/-- The blank characters: the ASCII ones, the separators of U+001C to U+001F
and every space of Unicode. -/
def isBlank (c : Char) : Bool :=
  let n := c.toNat
  (9 ≤ n && n ≤ 13) || (28 ≤ n && n ≤ 32) || n == 0x85 || n == 0xA0 || n == 0x1680
    || (0x2000 ≤ n && n ≤ 0x200A) || n == 0x2028 || n == 0x2029 || n == 0x202F
    || n == 0x205F || n == 0x3000

/-- Characters without those of a class at either end. -/
def trimEnds (p : Char → Bool) (cs : List Char) : List Char :=
  ((cs.dropWhile p).reverse.dropWhile p).reverse

/-- Characters without the blanks at either end. -/
def trimChars (cs : List Char) : List Char :=
  trimEnds isBlank cs

/-- A text without the blanks at either end. -/
def trim (s : String) : String :=
  String.ofList (trimChars s.toList)

/-- Characters with every run of blanks as one space; `inRun` tells that the
character before was a blank. -/
def squeezeFrom (inRun : Bool) : List Char → List Char
  | [] => []
  | c :: rest =>
    if isBlank c then
      if inRun then squeezeFrom true rest else ' ' :: squeezeFrom true rest
    else c :: squeezeFrom false rest

/-- Characters with every run of blanks as one space. -/
def squeeze (cs : List Char) : List Char :=
  squeezeFrom false cs

/-- The one-line form of a text. -/
def oneLine (s : String) : String :=
  String.ofList (trimChars (squeeze s.toList))

/-- Whether a text holds nothing but blanks. -/
def isBlankText (s : String) : Bool :=
  s.toList.all isBlank

end Text
end HaskellTags

/-!
# Colour names

The names that stand for a colour, in any letter case.
-/

namespace StyleSheet.Color

/-- The colour names of the vector graphics standard and `transparent`, sorted. -/
def names : Array String :=
  #["aliceblue", "antiquewhite", "aqua", "aquamarine", "azure", "beige", "bisque", "black",
    "blanchedalmond", "blue", "blueviolet", "brown", "burlywood", "cadetblue", "chartreuse",
    "chocolate", "coral", "cornflowerblue", "cornsilk", "crimson", "cyan", "darkblue", "darkcyan",
    "darkgoldenrod", "darkgray", "darkgreen", "darkgrey", "darkkhaki", "darkmagenta",
    "darkolivegreen", "darkorange", "darkorchid", "darkred", "darksalmon", "darkseagreen",
    "darkslateblue", "darkslategray", "darkslategrey", "darkturquoise", "darkviolet", "deeppink",
    "deepskyblue", "dimgray", "dimgrey", "dodgerblue", "firebrick", "floralwhite", "forestgreen",
    "fuchsia", "gainsboro", "ghostwhite", "gold", "goldenrod", "gray", "green", "greenyellow",
    "grey", "honeydew", "hotpink", "indianred", "indigo", "ivory", "khaki", "lavender",
    "lavenderblush", "lawngreen", "lemonchiffon", "lightblue", "lightcoral", "lightcyan",
    "lightgoldenrodyellow", "lightgray", "lightgreen", "lightgrey", "lightpink", "lightsalmon",
    "lightseagreen", "lightskyblue", "lightslategray", "lightslategrey", "lightsteelblue",
    "lightyellow", "lime", "limegreen", "linen", "magenta", "maroon", "mediumaquamarine",
    "mediumblue", "mediumorchid", "mediumpurple", "mediumseagreen", "mediumslateblue",
    "mediumspringgreen", "mediumturquoise", "mediumvioletred", "midnightblue", "mintcream",
    "mistyrose", "moccasin", "navajowhite", "navy", "oldlace", "olive", "olivedrab", "orange",
    "orangered", "orchid", "palegoldenrod", "palegreen", "paleturquoise", "palevioletred",
    "papayawhip", "peachpuff", "peru", "pink", "plum", "powderblue", "purple", "red", "rosybrown",
    "royalblue", "saddlebrown", "salmon", "sandybrown", "seagreen", "seashell", "sienna",
    "silver", "skyblue", "slateblue", "slategray", "slategrey", "snow", "springgreen",
    "steelblue", "tan", "teal", "thistle", "tomato", "transparent", "turquoise", "violet",
    "wheat", "white", "whitesmoke", "yellow", "yellowgreen"]

/-- The length of the longest name. -/
def maxLength : Nat := 20

/-- A letter in lower case; every other character is kept. -/
def lower (word : String) : String := String.ofList (word.toList.map Char.toLower)

/-- Whether a sorted array holds a word at a place from `lo` up to `hi`, by halving. -/
def search (sorted : Array String) (word : String) (lo hi : Nat) : Bool :=
  if lo < hi then
    let mid := lo + (hi - lo) / 2
    match sorted[mid]? with
    | none => false
    | some entry =>
      if entry == word then true
      else if entry < word then search sorted word (mid + 1) hi
      else search sorted word lo mid
  else false
termination_by hi - lo

/-- Whether a word names a colour.  No name is longer than `maxLength` bytes, so a longer word
is not looked up. -/
def isName (word : String) : Bool :=
  word.utf8ByteSize ≤ maxLength && search names (lower word) 0 names.size

end StyleSheet.Color

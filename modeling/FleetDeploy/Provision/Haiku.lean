/-!
# Random names

A bucket whose preferred name is taken gets a suffix that people can read: an
adjective, a noun and four digits.  The choices are uniform.  A word of random
bits selects by its product with the number of choices, and words whose low half
falls into the part that would favour some choices are passed over.
-/

namespace FleetDeploy.Haiku

/-- The adjectives to choose from. -/
def adjectives : List String :=
  ["autumn", "hidden", "bitter", "misty", "silent", "empty", "dry", "dark", "summer", "icy",
   "delicate", "quiet", "white", "cool", "spring", "winter", "patient", "twilight", "dawn",
   "crimson", "wispy", "weathered", "blue", "billowing", "broken", "cold", "damp", "falling",
   "frosty", "green", "long", "late", "lingering", "bold", "little", "morning", "muddy", "old",
   "red", "rough", "still", "small", "sparkling", "shy", "wandering", "withered", "wild", "black",
   "young", "holy", "solitary", "fragrant", "aged", "snowy", "proud", "floral", "restless",
   "divine", "polished", "ancient", "purple", "lively", "nameless"]

/-- The nouns to choose from. -/
def nouns : List String :=
  ["waterfall", "river", "breeze", "moon", "rain", "wind", "sea", "morning", "snow", "lake",
   "sunset", "pine", "shadow", "leaf", "dawn", "glitter", "forest", "hill", "cloud", "meadow",
   "sun", "glade", "bird", "brook", "butterfly", "bush", "dew", "dust", "field", "fire", "flower",
   "firefly", "feather", "grass", "haze", "mountain", "night", "pond", "darkness", "snowflake",
   "silence", "sound", "sky", "shape", "surf", "thunder", "violet", "water", "wildflower", "wave",
   "resonance", "log", "dream", "cherry", "tree", "fog", "frost", "voice", "paper", "frog",
   "smoke", "star"]

/-- The number of choices for the digits. -/
def tokens : Nat :=
  10000

/-- Choose one of `choices` by words of `bits` bits, accepting a low half up to
`zone`.  When the words run out, the choice of the word zero is taken. -/
def choose (bits choices zone : Nat) : List UInt64 → Nat × List UInt64
  | [] => (0, [])
  | w :: rest =>
    let range := Nat.pow 2 bits
    let product := w.toNat % range * choices
    if product % range ≤ zone then (product / range, rest) else choose bits choices zone rest

/-- Choose a place in a list of `choices` by words of 64 bits. -/
def chooseIndex (choices : Nat) (words : List UInt64) : Nat × List UInt64 :=
  choose 64 choices (choices * Nat.pow 2 (63 - Nat.log2 choices) - 1) words

/-- Choose a number below `choices` by the low halves of the words. -/
def chooseToken (choices : Nat) (words : List UInt64) : Nat × List UInt64 :=
  choose 32 choices (UInt32.size - 1 - (UInt32.size - choices) % choices) words

/-- A number with four digits. -/
def fourDigits (n : Nat) : List Char :=
  let ds := Nat.toDigits 10 n
  List.replicate (4 - ds.length) '0' ++ ds

/-- The name that a sequence of random words selects, and the words after it. -/
def ofWords (words : List UInt64) : String × List UInt64 :=
  let (adjective, words) := chooseIndex adjectives.length words
  let (noun, words) := chooseIndex nouns.length words
  let (token, words) := chooseToken tokens words
  (adjectives.getD adjective "" ++ "-" ++ nouns.getD noun "" ++ "-" ++
    String.ofList (fourDigits token), words)

end FleetDeploy.Haiku

import Mathlib.Data.List.Basic

/-!
# Command line options

`getopt_long` of the GNU C library: a word that begins with two hyphens is a long option, by its
name or by an abbreviation that fits one name only; a word that begins with one hyphen is a group
of short options. The argument of an option is the rest of its word, or the next word whatever it
looks like. Words that are not options are passed over, and `--` ends the options.
-/

namespace PiksiBuildroot.Lib.Getopt

/-- An option and whether it has an argument. -/
structure Entry (κ α : Type*) where
  key : κ
  hasArg : Bool
  val : α

/-- The short and the long options of a program. -/
structure Table (α : Type*) where
  short : List (Entry Char α)
  long : List (Entry (List Char) α)

/-- What a call of `getopt_long` gives. -/
inductive Item (α : Type*)
  | option (val : α) (arg : Option (List Char))
  | invalid
  deriving DecidableEq

variable {α : Type*}

/-- A long option by its name, or by an abbreviation that fits no other one. -/
def lookupLong (options : List (Entry (List Char) α)) (name : List Char) :
    Option (Entry (List Char) α) :=
  match options.find? fun o => o.key = name with
  | some o => some o
  | none =>
    match options.filter fun o => name.isPrefixOf o.key with
    | [o] => some o
    | _ => none

/-- The items of a long option without its hyphens, and the option that waits for its argument. -/
def longWord (t : Table α) (text : List Char) : List (Item α) × Option α :=
  let name := text.takeWhile (· ≠ '=')
  let value := text.dropWhile (· ≠ '=')
  match lookupLong t.long name with
  | none => ([.invalid], none)
  | some o =>
    match o.hasArg, value with
    | false, [] => ([.option o.val none], none)
    | false, _ :: _ => ([.invalid], none)
    | true, [] => ([], some o.val)
    | true, _ :: arg => ([.option o.val (some arg)], none)

/-- The items of a group of short options, and the option that waits for its argument. -/
def shortWord (t : Table α) : List Char → List (Item α) × Option α
  | [] => ([], none)
  | c :: text =>
    match t.short.find? fun o => o.key = c with
    | none => (.invalid :: (shortWord t text).1, (shortWord t text).2)
    | some o =>
      if o.hasArg then
        if text = [] then ([], some o.val) else ([.option o.val (some text)], none)
      else (.option o.val none :: (shortWord t text).1, (shortWord t text).2)

/-- The items of a word, and the option that waits for its argument. -/
def word (t : Table α) (text : List Char) : List (Item α) × Option α := match text with
  | '-' :: '-' :: text => longWord t text
  | '-' :: c :: text => shortWord t (c :: text)
  | _ => ([], none)

/-- The items of the words after an option that may wait for its argument. -/
def items (t : Table α) : Option α → List (List Char) → List (Item α)
  | none, [] => []
  | some _, [] => [.invalid]
  | some val, arg :: rest => .option val (some arg) :: items t none rest
  | none, text :: rest =>
    if text = ['-', '-'] then []
    else (word t text).1 ++ items t (word t text).2 rest

/-- The results of the calls of `getopt_long` for a command line. -/
def getoptLong (t : Table α) (args : List (List Char)) : List (Item α) := items t none args

/-- An option with its argument in the next word, whatever that is. -/
lemma getoptLong_argument {t : Table α} {text : List Char} {val : α}
    (hend : text ≠ ['-', '-']) (hword : word t text = ([], some val)) (arg : List Char)
    (rest : List (List Char)) :
    getoptLong t (text :: arg :: rest) = .option val (some arg) :: getoptLong t rest := by
  simp only [getoptLong, items, if_neg hend, hword, List.nil_append]

end PiksiBuildroot.Lib.Getopt

import RuleCheck.Number.DecimalText
import RuleCheck.Text.Quoted
import RuleCheck.Value

/-!
# Texts of values

`Value.display` writes a value for diagnostics, with texts in quotes and composite values in
brackets; `Value.keyText` writes a key of a mapping for the path of a failure, where a text stands for
itself.
-/

namespace RuleCheck

open Number (intText natText)

namespace Scalar

def boolText (b : Bool) : String :=
  if b then "True" else "False"

/-- A span of time as days, seconds and microseconds, the parts that are zero left out. -/
def spanDisplay (d : Time.Duration) : String :=
  let rest := (Int.fmod d.micros Time.Duration.day).toNat
  let parts :=
    (if d.days = 0 then [] else ["days=" ++ intText d.days]) ++
      (if rest / Time.Duration.second = 0 then []
        else ["seconds=" ++ natText (rest / Time.Duration.second)]) ++
      (if rest % Time.Duration.second = 0 then []
        else ["microseconds=" ++ natText (rest % Time.Duration.second)])
  "datetime.timedelta(" ++ (if parts.isEmpty then "0" else String.intercalate ", " parts) ++ ")"

/-- A moment as the list of its fields, seconds and microseconds left out while they are zero. -/
def momentDisplay (m : Time.Moment) : String :=
  let fields := [m.year, m.month, m.day, m.hour, m.minute] ++
    (if m.micro = 0 then if m.second = 0 then [] else [m.second] else [m.second, m.micro])
  let zone :=
    match m.offset with
    | none => []
    | some 0 => ["tzinfo=datetime.timezone.utc"]
    | some offset =>
      ["tzinfo=datetime.timezone(" ++ spanDisplay ⟨offset * Time.Duration.second⟩ ++ ")"]
  "datetime.datetime(" ++ String.intercalate ", " (fields.map natText ++ zone) ++ ")"

def display : Scalar → String
  | bool b => boolText b
  | int n => intText n
  | float x => x.shortest
  | text s => Text.quoted s
  | duration d => spanDisplay d
  | moment m => momentDisplay m

def keyText : Scalar → String
  | text s => s
  | duration d => d.clockText
  | moment m => m.text
  | other => other.display

end Scalar

namespace Foreign

def byteDisplay (quote : Char) (b : UInt8) : List Char :=
  let n := b.toNat
  let c := Char.ofNat n
  if c == quote || c == '\\' then ['\\', c]
  else if n == 9 then ['\\', 't']
  else if n == 10 then ['\\', 'n']
  else if n == 13 then ['\\', 'r']
  else if 32 ≤ n && n < 127 then [c]
  else '\\' :: 'x' :: Text.hexDigits 2 n

def bytesDisplay (content : List UInt8) : String :=
  let quote := Text.quoteFor (content.map fun b => Char.ofNat b.toNat)
  String.ofList ('b' :: quote :: content.flatMap (byteDisplay quote) ++ [quote])

/-- A part of a complex number: whole numbers have no point. -/
def partDisplay (x : Number.Binary64) : String :=
  let text := x.shortest
  if text.endsWith ".0" then (text.dropEnd 2).toString else text

/-- A complex number: the real part is left out while it is a positive zero. -/
def complexDisplay (re im : Number.Binary64) : String :=
  if re == .zero false then partDisplay im ++ "j"
  else
    let imText := partDisplay im
    let sign := if imText.startsWith "-" then "" else "+"
    "(" ++ partDisplay re ++ sign ++ imText ++ "j)"

def display : Foreign → String
  | date y m d => "datetime.date(" ++ String.intercalate ", " ([y, m, d].map natText) ++ ")"
  | bytes content => bytesDisplay content
  | byteArray content => "bytearray(" ++ bytesDisplay content ++ ")"
  | complex re im => complexDisplay re im

def keyText : Foreign → String
  | date y m d =>
    Number.paddedText 4 y ++ "-" ++ Number.paddedText 2 m ++ "-" ++ Number.paddedText 2 d
  | other => other.display

end Foreign

namespace Value

def commaList (texts : List String) : String :=
  String.intercalate ", " texts

def bracket (kind : SequenceKind) (items : List String) : String :=
  match kind, items with
  | .list, items => "[" ++ commaList items ++ "]"
  | .tuple, [item] => "(" ++ item ++ ",)"
  | .tuple, items => "(" ++ commaList items ++ ")"
  | .deque, items => "deque([" ++ commaList items ++ "])"
  | .set, [] => "set()"
  | .set, items => "\x7b" ++ commaList items ++ "\x7d"
  | .frozenset, [] => "frozenset()"
  | .frozenset, items => "frozenset(\x7b" ++ commaList items ++ "\x7d)"

mutual

def display : Value → String
  | .null => "None"
  | .scalar origin content =>
    match origin with
    | .member enumeration name =>
      "<" ++ enumeration ++ "." ++ name ++ ": " ++ content.display ++ ">"
    | _ => content.display
  | .foreign content => content.display
  | .member enumeration name content =>
    "<" ++ enumeration ++ "." ++ name ++ ": " ++ display content ++ ">"
  | .sequence kind _ items => bracket kind (displayItems items)
  | .range start stop step =>
    "range(" ++ commaList ([start, stop].map intText) ++
      (if step = 1 then "" else ", " ++ intText step) ++ ")"
  | .mapping kind _ entries =>
    let text := "\x7b" ++ commaList (displayEntries entries) ++ "\x7d"
    match kind with
    | .dict => text
    | .readOnly => "mappingproxy(" ++ text ++ ")"
  | .box content => "Ref(value=" ++ display content ++ ")"
  | .record head slots => head.name ++ "(" ++ commaList (displaySlots slots) ++ ")"

def displayItems : List Value → List String
  | [] => []
  | value :: items => display value :: displayItems items

def displayEntries : List (Value × Value) → List String
  | [] => []
  | (key, value) :: entries => (display key ++ ": " ++ display value) :: displayEntries entries

def displaySlots : List (String × Value) → List String
  | [] => []
  | (name, value) :: slots => (name ++ "=" ++ display value) :: displaySlots slots

end

/-- A value as a key of a mapping, where integers have no greatest number of digits. -/
def keyText : Value → String
  | .scalar (.member enumeration name) _ => enumeration ++ "." ++ name
  | .scalar _ content => content.keyText
  | .member enumeration name _ => enumeration ++ "." ++ name
  | .foreign content => content.keyText
  | .record ⟨_, .model, _⟩ slots => String.intercalate " " (displaySlots slots)
  | other => other.display

end Value

end RuleCheck

import Gamewire.Schema.Name
import Gamewire.Text.Search

/-! The page around a game. What is generated stands in blocks between two comments that carry the
name of the block; everything else belongs to the author of the page and stays as it is. -/
namespace Gamewire.Client
set_option autoImplicit false

/-- The blocks of a page. -/
inductive BlockName where
  | protocol
  | debugger
deriving Repr, DecidableEq

namespace BlockName

def text : BlockName → String
  | protocol => "protocol"
  | debugger => "debugger"

def beginMarker (b : BlockName) : List Char := ("<!-- hnp:begin " ++ b.text ++ " -->").toList

def endMarker (b : BlockName) : List Char := ("<!-- hnp:end " ++ b.text ++ " -->").toList

theorem beginMarker_ne_nil (b : BlockName) : b.beginMarker ≠ [] := by cases b <;> decide

theorem endMarker_ne_nil (b : BlockName) : b.endMarker ≠ [] := by cases b <;> decide

end BlockName

/-! ## Taking blocks out -/

/-- Drops the blanks after the last newline, if there is nothing else. -/
def dropIndent (head : List Char) : List Char :=
  if (head.reverse.takeWhile (· != '\n')).all (fun c => c == ' ' || c == '\t') then
    (head.reverse.dropWhile (· != '\n')).reverse
  else head

/-- Drops one newline in front. -/
def dropNewline : List Char → List Char
  | '\r' :: '\n' :: rest => rest
  | '\n' :: rest => rest
  | rest => rest

theorem dropNewline_length (cs : List Char) : (dropNewline cs).length ≤ cs.length := by
  unfold dropNewline
  split <;> simp
  omega

/-- Takes every block of a name out of a page, with the indentation and the newline around it;
`none` if a block has no end. -/
def strip (b : BlockName) (page : List Char) : Option (List Char) :=
  match _ : Text.cutFirst? b.beginMarker page with
  | none => some page
  | some (head, inner) =>
    match _ : Text.cutFirst? b.endMarker inner with
    | none => none
    | some (_, tail) => (strip b (dropNewline tail)).map (dropIndent head ++ ·)
termination_by page.length
decreasing_by
  have hinner := Text.cutFirst?_length ‹_ = some (head, inner)› b.beginMarker_ne_nil
  have htail := Text.cutFirst?_length ‹_ = some (_, tail)› b.endMarker_ne_nil
  have hdrop := dropNewline_length tail
  omega

/-! ## Putting blocks in -/

/-- Whether the text starts with the closing tag of a page's body, in either case. -/
def startsBodyEnd (cs : List Char) : Bool :=
  "</body>".toList.isPrefixOf ((cs.take 7).map lowerAscii)

/-- The lines of a block. -/
def blockText (b : BlockName) (content : List Char) : List Char :=
  b.beginMarker ++ '\n' :: Text.closeLine content ++ b.endMarker ++ ['\n']

/-- Puts a block in front of the last end of a body, or at the end of a page that has none. -/
def insert (b : BlockName) (content page : List Char) : List Char :=
  match Text.cutBeforeLast? startsBodyEnd page with
  | some (before, rest) => Text.endLine before ++ blockText b content ++ rest
  | none => Text.endLine page ++ blockText b content

end Gamewire.Client

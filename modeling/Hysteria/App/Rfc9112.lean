import Hysteria.Lib.Search
import Hysteria.Lib.Text

/-! How a server has to find the end of a request from its head: RFC 9112, sections 5 and 6.3.
Nothing here depends on the proxy. -/
namespace Hysteria.App.Rfc9112
open Lib

abbrev Fields := List (Text × Text)

inductive BodyLength where
  | octets (n : Nat)
  | chunked
  | untilClose
deriving DecidableEq, Repr

def isOws (c : Char) : Bool := c = ' ' || c = '\t'

theorem isWhitespace_of_isOws {c : Char} (h : isOws c) : isWhitespace c := by
  rw [isOws, Bool.or_eq_true, decide_eq_true_iff, decide_eq_true_iff] at h
  rcases h with rfl | rfl <;> decide

/-- The elements of a comma-separated list; empty ones are ignored. A comma within a quoted
string separates here too: an element that ends in a quote is not `chunked` either way. -/
def listElements (value : Text) : List Text :=
  ((value.splitOn ',').map (trimBy isOws)).filter (· ≠ [])

def fieldValues (name : String) (fields : Fields) : List Text :=
  (fields.filter fun field => eqIgnoreAsciiCase field.1 name).map Prod.snd

theorem fieldValues_cons (name : String) (field : Text × Text) (fields : Fields) :
    fieldValues name (field :: fields) =
      (if eqIgnoreAsciiCase field.1 name then [field.2] else []) ++ fieldValues name fields := by
  rw [fieldValues, List.filter_cons, fieldValues]
  split <;> rfl

theorem fieldValues_map (name : String) (f : Text → Text) (fields : Fields) :
    fieldValues name (fields.map fun field => (field.1, f field.2)) = (fieldValues name fields).map f := by
  induction fields with
  | nil => rfl
  | cons field fields ih =>
    rw [List.map_cons, fieldValues_cons, fieldValues_cons, ih, List.map_append]
    split <;> rfl

theorem fieldValues_append (name : String) (a b : Fields) :
    fieldValues name (a ++ b) = fieldValues name a ++ fieldValues name b := by
  simp [fieldValues]

/-- Several fields of one name are one list. -/
def transferCodings (fields : Fields) : List Text :=
  (fieldValues "Transfer-Encoding" fields).flatMap listElements

def contentLengths (fields : Fields) : List Text :=
  (fieldValues "Content-Length" fields).flatMap listElements

def lastCodingChunked (fields : Fields) : Bool :=
  (transferCodings fields).getLast?.any (eqIgnoreAsciiCase · "chunked")

def oneLength : List Text → Option Nat
  | [] => none
  | first :: others => (numeral 10 first).filter fun n => ∀ other ∈ others, numeral 10 other = some n

theorem oneLength_eq_some_iff {lengths : List Text} {n : Nat} :
    oneLength lengths = some n ↔ lengths ≠ [] ∧ ∀ length ∈ lengths, numeral 10 length = some n := by
  cases lengths with
  | nil => simp [oneLength]
  | cons first others =>
    rw [oneLength, Option.filter_eq_some_iff, List.forall_mem_cons]
    simp

/-- The body of a request, or nothing if the framing is faulty: a transfer coding takes
precedence and has to end with `chunked`, all lengths have to be `1*DIGIT` and the same, and
without any of them there is no body. -/
def bodyLength (fields : Fields) : Option BodyLength :=
  if fieldValues "Transfer-Encoding" fields ≠ [] then
    if lastCodingChunked fields then some .chunked else none
  else if fieldValues "Content-Length" fields = [] then some (.octets 0)
  else (oneLength (contentLengths fields)).map .octets

/-- A field line. White space in front would continue the line before, and white space
between name and colon has to be rejected. -/
def fieldLine (line : Text) : Option (Text × Text) := do
  let (name, value) ← splitOnce ':' line
  if trimBy isOws name = name then some (name, trimBy isOws value) else none

def fields (head : Text) : Option Fields :=
  ((splitSeq '\r' ['\n'] head).tail.takeWhile (· ≠ [])).mapM fieldLine

theorem bodyLength_congr {a b : Fields}
    (hcodings : fieldValues "Transfer-Encoding" a = fieldValues "Transfer-Encoding" b)
    (hlengths : fieldValues "Transfer-Encoding" a = [] →
      fieldValues "Content-Length" a = fieldValues "Content-Length" b) : bodyLength a = bodyLength b := by
  rw [bodyLength, bodyLength, lastCodingChunked, lastCodingChunked, transferCodings, transferCodings,
    ← hcodings]
  split
  · rfl
  · rw [contentLengths, contentLengths, hlengths (not_not.mp ‹_›)]

end Hysteria.App.Rfc9112

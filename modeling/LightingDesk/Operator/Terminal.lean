import LightingDesk.Text.Blank
import LightingDesk.Text.Fold
import LightingDesk.Text.Utf8

/-!
# The operator's terminal

Beside the controller, a desk listens to lines typed at a terminal.  Each reading is
announced by a prompt.  A line is compared with the known words without regard to case and
to blanks around it; an empty one is passed over, and any other is noted as unrecognized.
The terminal closes when its input ends, when a line is no text, or when a request finds
nobody listening.

    nothing is lost when the input is cut into lines            (flatten_lines)
-/

namespace LightingDesk

/-- What an operator can type. -/
inductive Request
  | status
  | quit
deriving DecidableEq, Repr

namespace Request

/-- The word for a request. -/
def word : Request → String
  | status => "status"
  | quit => "quit"

/-- The name of a request in reports. -/
def title : Request → String
  | status => "Status"
  | quit => "Quit"

/-- The request that a word names. -/
def ofWord? (word : String) : Option Request := [status, quit].find? (·.word == word)

end Request

/-- What has become of the lines typed so far. -/
structure Transcript where
  prompts : Nat
  requests : List Request
  unrecognized : List String
  unreadable : Bool
deriving DecidableEq, Repr

namespace Terminal

/-- What is printed before each reading. -/
def prompt : String := s!"Command ({Request.status.word}, {Request.quit.word}): "

/-- Cuts a byte string behind each line feed. -/
def lines : List UInt8 → List (List UInt8)
  | [] => []
  | b :: rest =>
    if b = 0x0a then [b] :: lines rest
    else
      match lines rest with
      | [] => [[b]]
      | line :: more => (b :: line) :: more

theorem flatten_lines (bytes : List UInt8) : (lines bytes).flatten = bytes := by
  induction bytes with
  | nil => rfl
  | cons b rest ih =>
    unfold lines
    split
    · simp [ih]
    · cases h : lines rest with
      | nil => rw [h] at ih; simp [← ih]
      | cons line more => rw [h] at ih; simp [← ih]

/-- Reads lines one after another.  `listening` says whether requests find anyone. -/
def converse (listening : Bool) (t : Transcript) : List (List UInt8) → Transcript
  | [] => { t with prompts := t.prompts + 1 }
  | line :: rest =>
    let t := { t with prompts := t.prompts + 1 }
    match Text.Utf8.decode? line with
    | none => { t with unreadable := true }
    | some typed =>
      let typed := Text.trim typed
      match Request.ofWord? (Text.lower typed) with
      | some request =>
        let t := { t with requests := t.requests ++ [request] }
        if listening then converse listening t rest else t
      | none =>
        if typed = "" then converse listening t rest
        else converse listening { t with unrecognized := t.unrecognized ++ [typed] } rest

/-- What becomes of everything typed at a terminal. -/
def read (listening : Bool) (bytes : List UInt8) : Transcript :=
  converse listening ⟨0, [], [], false⟩ (lines bytes)

/-- All that is printed. -/
def output (t : Transcript) : String := String.join (List.replicate t.prompts prompt)

end Terminal

end LightingDesk

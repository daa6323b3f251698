import NomadDev.Translators
import NomadDev.Endpoints
import NomadDev.Foundation.Transition

namespace NomadDev.History

open Middleware

variable {β : Type}

def countWords (s : String) : ℕ := ((s.toList.splitOnP Endpoints.isSpace).filter fun w => !w.isEmpty).length

structure Compactor (β : Type) where
  codec : Codec β
  raw : β → String
  wordThreshold : ℤ
  summarizer : Option (List (Turn String) → Except String String)

def extractText (k : Compactor β) (parts : β) : String :=
  match k.codec.unmarshal parts with
  | some (.obj fields) => if strField fields "text" = "" then k.raw parts else strField fields "text"
  | _ => k.raw parts

def marshalText (c : Codec β) (text : String) : β := c.marshal (.obj [("text", .str text)])

def compactionRow (k : Compactor β) (t : Turn β) : Turn String := ⟨t.sid, t.idx, t.role, extractText k t.parts⟩

def spoken (t : Turn β) : Bool := t.role = .user ∨ t.role = .assistant

def totalWords (rows : List (Turn String)) : ℕ := rows.foldl (fun total r => total + countWords r.parts) 0

def emptyStore (β : Type) : SQLiteStore β := ⟨[], .nil⟩

end NomadDev.History

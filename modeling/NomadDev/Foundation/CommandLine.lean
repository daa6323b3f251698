import Mathlib.Data.List.Basic

namespace Foundation.CommandLine

variable {ω : Type}

structure Reading (ω : Type) where
  (options positionals : List ω)
  deriving DecidableEq

def Reading.option (w : ω) (r : Reading ω) : Reading ω := { r with options := w :: r.options }

def Reading.positional (w : ω) (r : Reading ω) : Reading ω := { r with positionals := w :: r.positionals }

variable (isOption takesValue : ω → Bool)

def read : List ω → Reading ω
  | [] => ⟨[], []⟩
  | [w] => if isOption w then ⟨[w], []⟩ else ⟨[], [w]⟩
  | w :: v :: rest =>
    if isOption w then
      if takesValue w then (read rest).option w else (read (v :: rest)).option w
    else (read (v :: rest)).positional w

variable {isOption takesValue} {w : ω}

theorem read_singleton : read isOption takesValue [w] = if isOption w then ⟨[w], []⟩ else ⟨[], [w]⟩ := rfl

theorem read_flag (hw : isOption w = true) (hv : takesValue w = false) (rest : List ω) :
    read isOption takesValue (w :: rest) = (read isOption takesValue rest).option w := by
  cases rest with
  | nil => rw [read_singleton, if_pos hw]; rfl
  | cons v rest => simp only [read, hw, hv, if_true, Bool.false_eq_true, if_false]

theorem read_value (hw : isOption w = true) (hv : takesValue w = true) (v : ω) (rest : List ω) :
    read isOption takesValue (w :: v :: rest) = (read isOption takesValue rest).option w := by
  simp only [read, hw, hv, if_true]

theorem read_values (hw : isOption w = true) (hv : takesValue w = true) (vs rest : List ω) :
    read isOption takesValue (vs.flatMap (fun v => [w, v]) ++ rest) = { read isOption takesValue rest with
        options := List.replicate vs.length w ++ (read isOption takesValue rest).options } := by
  induction vs with
  | nil => rfl
  | cons v vs ih =>
    rw [List.flatMap_cons, List.append_assoc, List.cons_append, List.cons_append, List.nil_append, read_value hw hv, ih]
    rfl

end Foundation.CommandLine

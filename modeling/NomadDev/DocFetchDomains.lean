import NomadDev.DocFetchScreen

namespace NomadDev.DocFetch

open Fsops List
open WorkerPool (trimSpace)

def Under (host d : Bytes) : Prop := host = d ∨ 46 :: d <:+ host

def target (env : Env) (v : URL) : Bytes := trimDot (env.lower v.hostname)

section Names

variable {a b c : Bytes}

theorem Under.trans (hab : Under a b) (hbc : Under b c) : Under a c := by
  rcases hab with rfl | hab
  · exact hbc
  · rcases hbc with rfl | hbc
    · exact Or.inr hab
    · exact Or.inr (hbc.trans ((suffix_cons 46 b).trans hab))

theorem trimDot_append_dot (a : Bytes) : trimDot (a ++ [46]) = a := by simp [trimDot]

theorem trimDot_append_of_ne {last : UInt8} (h : last ≠ 46) (a : Bytes) : trimDot (a ++ [last]) = a ++ [last] :=
  if_neg (by simpa using h)

theorem Under.trimDot (hb : b ≠ []) (h : Under a b) : Under (trimDot a) (trimDot b) := by
  rcases h with rfl | ⟨front, rfl⟩
  · exact Or.inl rfl
  rcases eq_nil_or_concat b with rfl | ⟨start, last, rfl⟩
  · exact absurd rfl hb
  refine Or.inr ⟨front, ?_⟩
  rw [concat_eq_append]
  by_cases hlast : last = 46
  · rw [hlast, ← cons_append, ← append_assoc, trimDot_append_dot, trimDot_append_dot]
  · rw [← cons_append, ← append_assoc, trimDot_append_of_ne hlast, trimDot_append_of_ne hlast,
      append_assoc, cons_append]

end Names

section Lists

variable {env : Env} {config : List Bytes} {host e : Bytes} {v : URL}

end Lists

section Pages

variable {env : Env} {config : List Bytes} {e name : Bytes}

end Pages

end NomadDev.DocFetch

import LineCalculator.Text.Cluster
/-! # Backspaces

A line may hold the backspaces that were struck while it was typed.

* `applyBackspaces`: the line as it was meant. Each backspace takes back the grapheme cluster
  that is left before it, and one with nothing before it does nothing.
* `applyBackspaces_eq_self`: a line without backspaces is kept.
-/

namespace LineCalculator.Text
set_option autoImplicit false

def backspace : Char := '\x08'

/-- The clusters that are left after one more is typed. The last one comes first. -/
def typeCluster (kept : List (List Char)) (cluster : List Char) : List (List Char) :=
  if cluster = [backspace] then kept.tail else cluster :: kept

def applyBackspaces (line : List Char) : List Char :=
  ((clusters line).foldl typeCluster []).reverse.flatten

theorem foldl_typeCluster (kept typed : List (List Char)) (h : [backspace] ∉ typed) :
    typed.foldl typeCluster kept = typed.reverse ++ kept := by
  induction typed generalizing kept with
  | nil => rfl
  | cons cluster typed ih =>
    rw [List.mem_cons, not_or] at h
    rw [List.foldl_cons, typeCluster, if_neg (Ne.symm h.1), ih _ h.2, List.reverse_cons,
      List.append_assoc, List.singleton_append]

theorem applyBackspaces_eq_self {line : List Char} (h : backspace ∉ line) :
    applyBackspaces line = line := by
  have hc : [backspace] ∉ clusters line := fun hm =>
    h (flatten_clusters line ▸ List.mem_flatten.mpr ⟨_, hm, List.mem_singleton.mpr rfl⟩)
  rw [applyBackspaces, foldl_typeCluster [] _ hc, List.append_nil, List.reverse_reverse,
    flatten_clusters]

end LineCalculator.Text

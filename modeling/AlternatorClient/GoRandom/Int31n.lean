import AlternatorClient.GoRandom.Generator
import AlternatorClient.Exceptions

/-! `GoRandom::Int31n`. Its loop needs no bound of its own: every state leaves
it, so the model is total and throws only where the source does. -/
namespace AlternatorClient.GoRandom
open Foundation

def int31n (g : GoRandom) (n : Int32) : Except Error (Int × GoRandom) :=
  if range : n.toInt ≤ 0 then .error (.invalidArgument (bytes "GoRandom::Int31n requires n > 0"))
  else if n.toInt.toNat &&& (n.toInt.toNat - 1) = 0 then
    .ok ((((g.int31).1.toNat &&& (n.toInt.toNat - 1) : Nat) : Int), (g.int31).2)
  else
    let accepted := (rejectAbove (maxFor n.toInt) rejectionBound g).get
      (rejectAbove_isSome _ (maxFor_large (by omega) n.toInt_lt) g)
    .ok (accepted.1 % n.toInt, accepted.2)

/-- In range for every state and every positive bound. -/
theorem int31n_range (g : GoRandom) (n : Int32) (positive : 0 < n.toInt) :
    ∃ v next, g.int31n n = .ok (v, next) ∧ 0 ≤ v ∧ v < n.toInt := by
  simp only [int31n, dif_neg (not_le.mpr positive)]
  split
  · refine ⟨_, _, rfl, by omega, ?_⟩
    have masked : (g.int31).1.toNat &&& (n.toInt.toNat - 1) ≤ n.toInt.toNat - 1 := Nat.and_le_right
    omega
  · exact ⟨_, _, rfl, Int.emod_nonneg _ (by omega), Int.emod_lt_of_pos _ positive⟩

theorem int31n_ok {g next : GoRandom} {n : Int32} {v : Int} (drawn : g.int31n n = .ok (v, next)) :
    0 ≤ v ∧ v < n.toInt := by
  by_cases positive : 0 < n.toInt
  · obtain ⟨w, after, same, range⟩ := g.int31n_range n positive
    rw [drawn] at same
    cases same
    exact range
  · simp only [int31n, dif_pos (not_lt.mp positive)] at drawn
    contradiction

theorem int31n_one (g : GoRandom) : g.int31n 1 = .ok (0, (g.int31).2) := by
  have one : (1 : Int32).toInt = 1 := rfl
  simp [int31n, one]

end AlternatorClient.GoRandom

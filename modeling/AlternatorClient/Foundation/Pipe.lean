import Mathlib.Data.List.Basic

/-! One direction of a connection: what is written is read in the order in which
it was written, in pieces of any size. -/
namespace Foundation
variable {α : Type}

structure Pipe (α : Type) where
  read : List α := []
  waiting : List α := []
  closed : Bool := false

namespace Pipe

def written (pipe : Pipe α) : List α := pipe.read ++ pipe.waiting

def write (pipe : Pipe α) (data : List α) : Pipe α := { pipe with waiting := pipe.waiting ++ data }

def take (pipe : Pipe α) (n : Nat) : Pipe α :=
  { pipe with read := pipe.read ++ pipe.waiting.take n, waiting := pipe.waiting.drop n }

def close (pipe : Pipe α) : Pipe α := { pipe with closed := true }

section
variable (pipe : Pipe α) (data : List α) (n : Nat)

@[simp] theorem written_write : (pipe.write data).written = pipe.written ++ data := by
  simp [written, write]

@[simp] theorem written_take : (pipe.take n).written = pipe.written := by
  simp [written, take, List.append_assoc]

@[simp] theorem written_close : pipe.close.written = pipe.written := rfl

@[simp] theorem read_write : (pipe.write data).read = pipe.read := rfl

@[simp] theorem read_take : (pipe.take n).read = pipe.read ++ pipe.waiting.take n := rfl

@[simp] theorem read_close : pipe.close.read = pipe.read := rfl

@[simp] theorem waiting_write : (pipe.write data).waiting = pipe.waiting ++ data := rfl

@[simp] theorem waiting_take : (pipe.take n).waiting = pipe.waiting.drop n := rfl

@[simp] theorem waiting_close : pipe.close.waiting = pipe.waiting := rfl

@[simp] theorem closed_write : (pipe.write data).closed = pipe.closed := rfl

@[simp] theorem closed_take : (pipe.take n).closed = pipe.closed := rfl

@[simp] theorem closed_close : pipe.close.closed = true := rfl

theorem read_prefix : pipe.read <+: pipe.written := List.prefix_append _ _

theorem read_of_drained (drained : pipe.waiting = []) : pipe.read = pipe.written := by
  rw [written, drained, List.append_nil]

end
end Pipe
end Foundation

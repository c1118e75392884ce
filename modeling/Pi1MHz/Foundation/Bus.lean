import Mathlib.Data.List.Basic
import Mathlib.Logic.Function.Basic

/-! Programs that act on a bus only by reading and writing cells, a read deciding what follows. A
run does to the device what its accesses do. -/
namespace Bus

variable {ι β α γ σ : Type}

inductive Program (ι β α : Type)
  | done (result : α)
  | read (address : ι) (next : β → Program ι β α)
  | write (address : ι) (value : β) (next : Program ι β α)

inductive Access (ι β : Type)
  | read (address : ι)
  | write (address : ι) (value : β)

/-- What an access does to the state behind the bus. -/
structure Device (σ ι β : Type) where
  read : σ → ι → σ × β
  write : σ → ι → β → σ

namespace Program

def bind : Program ι β α → (α → Program ι β γ) → Program ι β γ
  | done result, rest => rest result
  | read address next, rest => read address fun value => (next value).bind rest
  | write address value next, rest => write address value (next.bind rest)

instance : Monad (Program ι β) where
  pure := done
  bind := bind

/-- The program run against a device. -/
def run (d : Device σ ι β) : Program ι β α → σ → σ × α
  | done result, s => (s, result)
  | read address next, s => (next (d.read s address).2).run d (d.read s address).1
  | write address value next, s => next.run d (d.write s address value)

/-- The accesses that the run makes, in order. -/
def accesses (d : Device σ ι β) : Program ι β α → σ → List (Access ι β)
  | done _, _ => []
  | read address next, s =>
    .read address :: (next (d.read s address).2).accesses d (d.read s address).1
  | write address value next, s => .write address value :: next.accesses d (d.write s address value)

/-- Whatever the reads bring, the result meets `post`. -/
def Always (post : α → Prop) : Program ι β α → Prop
  | done result => post result
  | read _ next => ∀ value, (next value).Always post
  | write _ _ next => next.Always post

end Program

/-- Memory of one cell an address. -/
def Device.cells [DecidableEq ι] : Device (ι → β) ι β where
  read := fun s address => (s, s address)
  write := Function.update

def Device.access (d : Device σ ι β) (s : σ) : Access ι β → σ
  | .read address => (d.read s address).1
  | .write address value => d.write s address value

open Program

section Runs
variable (d : Device σ ι β)

theorem run_bind (p : Program ι β α) (rest : α → Program ι β γ) (s : σ) :
    (p >>= rest).run d s = (rest (p.run d s).2).run d (p.run d s).1 := by
  induction p generalizing s with
  | done result => rfl
  | read address next ih => exact ih _ _
  | write address value next ih => exact ih _

/-- The state after a run is the one its accesses leave. -/
theorem run_accesses (p : Program ι β α) (s : σ) :
    (p.run d s).1 = (p.accesses d s).foldl d.access s := by
  induction p generalizing s with
  | done result => rfl
  | read address next ih => exact ih _ _
  | write address value next ih => exact ih _

end Runs

section Rules
variable {d : Device σ ι β}

variable {post : α → Prop} {p : Program ι β α}

theorem Program.Always.run (always : p.Always post) (d : Device σ ι β) (s : σ) :
    post (p.run d s).2 := by
  induction p generalizing s with
  | done result => exact always
  | read address next ih => exact ih _ (always _) _
  | write address value next ih => exact ih always _

theorem Program.Always.bind {after : γ → Prop} {rest : α → Program ι β γ} (always : p.Always post)
    (then_ : ∀ result, post result → (rest result).Always after) : (p >>= rest).Always after := by
  induction p with
  | done result => exact then_ result always
  | read address next ih => exact fun value => ih value (always value)
  | write address value next ih => exact ih always

theorem Program.Always.imp {weaker : α → Prop} (always : p.Always post)
    (weakens : ∀ result, post result → weaker result) : p.Always weaker := by
  induction p with
  | done result => exact weakens result always
  | read address next ih => exact fun value => ih value (always value)
  | write address value next ih => exact ih always

end Rules

end Bus

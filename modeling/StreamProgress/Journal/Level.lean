import StreamProgress.Json.Vocabulary

/-!
# Levels of journal lines

Every line of a journal has a level, and a journal records the lines from its own level upwards.
-/

namespace StreamProgress

/-- The levels, the least severe first. -/
inductive Level where
  | trace
  | debug
  | info
  | warn
  | error
  deriving DecidableEq, Repr, Inhabited

namespace Level

/-- The name of a level. -/
def name : Level → String
  | .trace => "TRACE"
  | .debug => "DEBUG"
  | .info => "INFO"
  | .warn => "WARN"
  | .error => "ERROR"

/-- The levels in ascending order. -/
def all : List Level := [.trace, .debug, .info, .warn, .error]

/-- The levels by name. -/
def vocabulary : Json.Vocabulary Level := ⟨all.map fun l => (l.name, l)⟩

/-- The place of a level in ascending order. -/
def rank : Level → Nat
  | .trace => 0
  | .debug => 1
  | .info => 2
  | .warn => 3
  | .error => 4

instance : LE Level := ⟨fun a b => a.rank ≤ b.rank⟩

instance (a b : Level) : Decidable (a ≤ b) := inferInstanceAs (Decidable (a.rank ≤ b.rank))

/-- Levels are compared by rank. -/
def compare (a b : Level) : Ordering := Ord.compare a.rank b.rank

theorem find_name (l : Level) : vocabulary.find l.name = .ok l := by
  cases l <;> rfl

end Level

end StreamProgress

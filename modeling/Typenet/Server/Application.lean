import Typenet.Stack.Application

namespace Typenet

/-!
# The server's applications

`ServerApp` is the application the server runs with; its state is the choice itself, which
never changes.  Both choices answer byte for byte, so replies are as long as requests.
-/

/-- The set of applications that the server supports. -/
inductive ServerApp
  /-- Echoes back exactly what it receives. -/
  | Echo
  /-- Capitalizes all ASCII letters. -/
  | Shout
  deriving DecidableEq, Repr

/-- `u8::to_ascii_uppercase`. -/
def toAsciiUppercase (b : UInt8) : UInt8 := if 97 ≤ b ∧ b ≤ 122 then b - 32 else b

/-- What a `ServerApp` answers to data, over UDP and TCP alike. -/
def ServerApp.answer (self : ServerApp) (data : List UInt8) : List UInt8 :=
  match self with
  | .Echo => data
  | .Shout => data.map toAsciiUppercase

/-- `impl Application for ServerApp`. -/
def ServerApp.application : Application ServerApp where
  handleUdp self payload := (self, self.answer payload)
  handleTcp self data := (self, self.answer data)

@[simp] theorem ServerApp.answer_length (self : ServerApp) (data : List UInt8) :
    (self.answer data).length = data.length := by
  cases self <;> simp [answer]

/-- Answering slice by slice is answering all of them at once. -/
theorem ServerApp.feed_eq (self : ServerApp) (slices : List (List UInt8)) :
    ServerApp.application.feed self slices = (self, self.answer slices.flatten) := by
  induction slices with
  | nil => cases self <;> rfl
  | cons x xs ih =>
    rw [Application.feed_cons]
    show ((ServerApp.application.feed self xs).1,
      self.answer x ++ (ServerApp.application.feed self xs).2) = _
    rw [ih]
    cases self <;> simp [answer]

end Typenet

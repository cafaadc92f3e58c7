import SessionDirectory.Directory.Basic

/-!
# Dialogues

A dialogue with a list server: calls, each of which may depend on the answers before, and a result
at the end. Whoever holds the dialogue supplies the answers.

## Main definitions

* `Dialogue α`: a dialogue with a result of type `α`
* `Dialogue.run`: the dialogue with a given server
* `Dialogue.perform`: the dialogue with answers that are had by some action
* `Dialogue.askAll`: several calls one after the other, whatever becomes of them
-/

set_option autoImplicit false

namespace SessionDirectory

/-- A dialogue with a list server. -/
inductive Dialogue (α : Type) where
  | done (result : α)
  | ask (call : Call) (next : Answer → Dialogue α)

namespace Dialogue

variable {α β : Type}

/-- The dialogue with another result. -/
def map (f : α → β) : Dialogue α → Dialogue β
  | done result => done (f result)
  | ask call next => ask call fun answer => (next answer).map f

/-- A single call. -/
def single (call : Call) : Dialogue Answer := ask call done

/-- Several calls one after the other; all are made. -/
def askAll : List Call → Dialogue (List Answer)
  | [] => done []
  | call :: rest => ask call fun answer => (askAll rest).map (answer :: ·)

/-- The calls made and the result with a server that has answered some calls before. -/
def runAfter (d : Directory) (past : List Call) : Dialogue α → List Call × α
  | done result => (past, result)
  | ask call next => (next (d past call)).runAfter d (past ++ [call])

/-- The calls made and the result with a server. -/
def run (d : Directory) (dialogue : Dialogue α) : List Call × α := dialogue.runAfter d []

/-- The dialogue with answers that an action gets. -/
def perform {m : Type → Type} [Monad m] (answer : Call → m Answer) : Dialogue α → m α
  | done result => pure result
  | ask call next => answer call >>= fun a => (next a).perform answer

end Dialogue

end SessionDirectory

/-!
# Cancellation tokens

Tokens form a forest. Cancelling one cancels all tokens below it, those to come included, and
nothing else. A token knows its ancestors, so this does not depend on which tokens are still in use.

- `Tokens` is the record of the tokens handed out and cancelled.
- `TokenSet` holds tokens that can be cancelled together. Putting one in gives a guard, and dropping
  the guard takes it out again.
-/

namespace TestRig

/-- A token: its number and the numbers of its ancestors, the nearest first. -/
structure Token where
  id : Nat
  /-- The numbers of its ancestors. -/
  ancestors : List Nat := []
  deriving Repr, DecidableEq, Inhabited

/-- The token and its ancestors. -/
def Token.lineage (token : Token) : List Nat :=
  token.id :: token.ancestors

/-- The tokens handed out so far. -/
structure Tokens where
  /-- The number of the next token. -/
  next : Nat := 0
  /-- The numbers of the tokens that were cancelled themselves. -/
  cancelled : List Nat := []
  deriving Repr, DecidableEq, Inhabited

namespace Tokens

/-- Hands out a token without ancestors. -/
def root (tokens : Tokens) : Token × Tokens :=
  (⟨tokens.next, []⟩, { tokens with next := tokens.next + 1 })

/-- Hands out a token below another. -/
def child (tokens : Tokens) (parent : Token) : Token × Tokens :=
  (⟨tokens.next, parent.lineage⟩, { tokens with next := tokens.next + 1 })

/-- Cancels a token. -/
def cancel (tokens : Tokens) (token : Token) : Tokens :=
  { tokens with cancelled := token.id :: tokens.cancelled }

/-- A token is cancelled if it or one of its ancestors was. -/
def isCancelled (tokens : Tokens) (token : Token) : Bool :=
  token.lineage.any tokens.cancelled.contains

end Tokens

/-- Tokens that can be cancelled together. -/
structure TokenSet where
  /-- The number of the next guard. -/
  next : Nat := 0
  /-- The tokens in the set under the numbers of their guards. -/
  entries : List (Nat × Token) := []
  deriving Repr, DecidableEq, Inhabited

/-- Keeps a token in a set until it is dropped. -/
structure TokenGuard where
  id : Nat
  deriving Repr, DecidableEq, Inhabited

/-- One line that shows a guard. -/
def TokenGuard.describe (guard : TokenGuard) : String :=
  s!"TokenGuard \x7b id: {guard.id} \x7d"

namespace TokenSet

/-- Number of entries. -/
def size (set : TokenSet) : Nat :=
  set.entries.length

/-- The set holds nothing. -/
def isEmpty (set : TokenSet) : Bool :=
  set.entries.isEmpty

/-- Puts a token into the set. -/
def insert (set : TokenSet) (token : Token) : TokenGuard × TokenSet :=
  (⟨set.next⟩, { next := set.next + 1, entries := set.entries ++ [(set.next, token)] })

/-- Takes out the entry of a guard, if it is still there. -/
def drop (set : TokenSet) (guard : TokenGuard) : TokenSet :=
  { set with entries := set.entries.filter fun (id, _) => id != guard.id }

/-- Cancels all tokens of the set, empties it and tells how many there were. -/
def cancelAll (set : TokenSet) (tokens : Tokens) : Nat × TokenSet × Tokens :=
  (set.size, { set with entries := [] },
    set.entries.foldl (fun tokens (_, token) => tokens.cancel token) tokens)

end TokenSet

end TestRig

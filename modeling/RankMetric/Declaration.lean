import RankMetric.Declaration.Line

/-!
# Declaring a quantity

`Tables.declare` adds the quantity of a declaration line to every scope of a list at once. It is all
or nothing: a failure comes without tables. The faults are looked for in a fixed order: the line
cannot be taken apart, some target has the name already, the terminator is missing.

Words of the initializer that some target knows are recorded as used in all targets that are
routines. What a contribution reads is looked up in the first target only, and that target is the
home of the contribution.
-/

namespace RankMetric

namespace DeclarationLine

/-- The quantity of a declaration line, but for what its contribution reads. -/
def quantity (d : DeclarationLine) (line : Int) (level : Level) (a : Attributes) : Quantity where
  name := d.name
  type := d.type
  initializer := d.initializer
  line := line
  level := level
  macroText := Text.nonempty? a.macroText
  fallbackInit := Text.nonempty? a.fallbackInit
  prerequisite := Text.nonempty? a.prerequisite
  contribution := Text.nonempty? a.contribution
  contributionReads := []
  contributionHome := none
  comment := d.comment
  doc := a.doc

end DeclarationLine

namespace Tables

/-- Whether some of the targets has a quantity with the given name. -/
def knows (t : Tables) (targets : List Scope) (n : Name) : Bool :=
  targets.any fun s ↦ (t.quantities s).contains n

/-- Fill in what the contribution of a quantity reads: those of its words that the first target
knows, the quantity itself among them. -/
def resolveContribution (t : Tables) (targets : List Scope) (q : Quantity) : Quantity :=
  match targets.head?, q.contribution with
  | some first, some text =>
    let words := ((significant text).filter Token.isWord).map Token.text
    { q with
      contributionReads := words.filter fun w ↦ w == q.name || (t.quantities first).contains w
      contributionHome := first.routine? }
  | _, _ => q

/-- Filling in what the contribution of a quantity reads changes nothing else of it. -/
theorem exists_resolveContribution_eq (t : Tables) (targets : List Scope) (q : Quantity) :
    ∃ reads home, t.resolveContribution targets q =
      { q with contributionReads := reads, contributionHome := home } := by
  unfold resolveContribution
  split <;> exact ⟨_, _, rfl⟩

/-- Add the quantity of a line to all targets and record the words of its initializer. -/
def enter (t : Tables) (targets : List Scope) (d : DeclarationLine) (q : Quantity) : Tables :=
  let known := d.mentions.filter (t.knows targets)
  let q := t.resolveContribution targets q
  targets.foldl (fun t s ↦ (t.useAll s known).insert s q) t

/-- The line number of an error: that of the declaration, or 0 if it is no 32-bit number. -/
def errorLine (line : Int) : Nat :=
  if 0 ≤ line ∧ line < 0x100000000 then line.toNat else 0

/-- Declare the quantity of a line in every target. The attributes may depend on its name. -/
def declare (t : Tables) (file : Text) (targets : List Scope) (raw : Text) (line : Int)
    (level : Level) (attributes : Name → Attributes) : Except DescriptionError (Name × Tables) :=
  let fault (c : Cause) := Except.error (DescriptionError.located file (errorLine line) c raw)
  match DeclarationLine.read raw with
  | .error c => fault c
  | .ok d =>
    if t.knows targets d.name then fault (.duplicateDeclaration d.name)
    else if !d.isTerminated then fault .missingTerminator
    else .ok (d.name, t.enter targets d (d.quantity line level (attributes d.name)))

/-- When a line can be declared, and what is declared then. -/
theorem declare_eq_ok_iff {t t' : Tables} {file raw : Text} {targets : List Scope} {line : Int}
    {level : Level} {attributes : Name → Attributes} {n : Name} :
    t.declare file targets raw line level attributes = .ok (n, t') ↔
      ∃ d, DeclarationLine.read raw = .ok d ∧ t.knows targets d.name = false ∧
        d.isTerminated = true ∧ d.name = n ∧
        t.enter targets d (d.quantity line level (attributes d.name)) = t' := by
  unfold declare
  dsimp only
  constructor
  · intro h
    split at h
    · cases h
    next d hread =>
    split at h
    · cases h
    next hknown =>
    split at h
    · cases h
    next hterminated =>
    obtain ⟨hname, htables⟩ := Prod.mk.inj (Except.ok.inj h)
    exact ⟨d, hread, by simpa using hknown, by simpa using hterminated, hname, htables⟩
  · rintro ⟨d, hread, hknown, hterminated, rfl, rfl⟩
    rw [hread]
    simp [hknown, hterminated]

end Tables

end RankMetric

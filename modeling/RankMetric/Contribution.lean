import RankMetric.Tables

/-!
# What contributions bring in

The contribution of a quantity is an expression that stands in for it where no document is at hand.
The quantities it reads have to be known to the routine, so they count as used once the quantity is
used in the home of the contribution. As they may have contributions in turn, the used set is
*closed*: `Body.closeUsed` goes round until nothing is added. A round that adds something adds one
of the names that contributions read, so there are no more rounds than those names
(`Body.contributionNames`).

The prerequisites of a routine are the set-up texts of the quantities it uses.
-/

namespace RankMetric

namespace Body

/-- The names that the contribution of `q` brings in for routine `r`. -/
def broughtIn (r : Routine) (q : Quantity) : List Name :=
  if q.contributionHome = some r then q.contributionReads else []

/-- The names brought in by those of the used names that are declared. -/
def broughtInBy (r : Routine) (qs : Quantities) (u : NameSet) : List Name :=
  (u.toList.filterMap qs.get?).flatMap (broughtIn r)

/-- All names that a contribution of the body reads. -/
def contributionNames (r : Routine) (qs : Quantities) : List Name :=
  qs.toList.flatMap (broughtIn r)

/-- Go round `n` times. -/
def closeRounds (r : Routine) (qs : Quantities) : Nat → NameSet → NameSet
  | 0, u => u
  | n + 1, u => closeRounds r qs n (u.insertAll (broughtInBy r qs u))

/-- The body with a closed used set. -/
def closeUsed (r : Routine) (b : Body) : Body :=
  { b with used := closeRounds r b.quantities (contributionNames r b.quantities).length b.used }

/-- The set-up texts of the quantities that are used, in the order of names. -/
def prerequisites (b : Body) : List Text :=
  (b.quantities.toList.filter fun q ↦ b.used.contains q.name).filterMap Quantity.prerequisite

end Body

namespace Tables

/-- The tables with closed used sets. -/
def closeContributions (t : Tables) : Tables :=
  { t with decode := t.decode.closeUsed .decode, post := t.post.closeUsed .post }

/-- The set-up texts of both routines, those of `post` first. A quantity that both use is set up
twice. -/
def prerequisites (t : Tables) : List Text :=
  t.post.prerequisites ++ t.decode.prerequisites

end Tables

end RankMetric

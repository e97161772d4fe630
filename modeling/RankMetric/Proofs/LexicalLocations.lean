import Mathlib.Data.List.Induction
import RankMetric.Files

/-!
# The locations that a store tells apart

A store of texts holds them by the location of their paths, in which no way up is left. Two paths
with one destination should find the same text and two with unlike destinations never the same one,
where the destination of a path keeps the root, which has nothing above it, and the steps up that
lead above the start of a path that does not begin at the root.

Every step up takes away the last step of a location, whatever that is. So the root is lost to a
step up, and a step up from the start is lost itself. What both functions keep is the trail of a
path: its names, and the number of steps up that met none.

* `Path.destination` follows the rule above, `Path.trail` counts.
* `Path.destination_eq`, `Path.location_eq`: both from the trail, by one lemma for a step each.
* `Path.location_eq_iff_destination_eq_iff`: the pairs of paths that a store tells apart as their
  destinations do.
* `TextStore.reads_destination_iff`: the paths at which a store answers by destinations.
-/

namespace RankMetric

/-- The name of a step, if it has one. -/
def PathStep.name? : PathStep → Option Name
  | .name n => some n
  | _ => none

namespace Path

variable {p q path : Text} {s : PathStep} {ss : List PathStep}

/-! ### Destinations -/

/-- Go one step on towards a destination. A step up takes away a name; at the root it leads nowhere,
and elsewhere it stays. -/
def proceed (l : List PathStep) : PathStep → List PathStep
  | .up =>
    match l.getLast? with
    | some (.name _) => l.dropLast
    | some .root => l
    | _ => l ++ [.up]
  | s => l ++ [s]

/-- Where a path leads, by its steps alone. -/
def destination (path : Text) : List PathStep :=
  (steps path).foldl proceed []

/-! ### Trails -/

/-- What is left of a path when its steps up have taken away the names before them. -/
structure Trail where
  /-- The number of steps up that had no name before them. -/
  climbs : Nat := 0
  names : List Name := []
  deriving DecidableEq, Repr

namespace Trail

variable {t t' : Trail} {rooted rooted' : Bool}

/-- Go one step on along a trail. -/
def step (t : Trail) : PathStep → Trail
  | .root => t
  | .up =>
    if t.names = [] then { t with climbs := t.climbs + 1 }
    else { t with names := t.names.dropLast }
  | .name n => { t with names := t.names ++ [n] }

/-- The destination of a path with this trail. -/
def destination (rooted : Bool) (t : Trail) : List PathStep :=
  (if rooted then [.root] else List.replicate t.climbs .up) ++ t.names.map .name

/-- Whether the root is left in the location of a path with this trail. -/
def keepsRoot (rooted : Bool) (t : Trail) : Bool :=
  rooted && t.climbs == 0

/-- The location of a path with this trail. -/
def location (rooted : Bool) (t : Trail) : Location :=
  (if t.keepsRoot rooted then [.root] else []) ++ t.names.map .name

/-- A step on the way to a destination is a step of the trail. At the root, and at the start of a
path that is not absolute, a step up finds no name and is counted instead. -/
theorem proceed_destination (rooted : Bool) (t : Trail) (hs : s ≠ .root) :
    proceed (t.destination rooted) s = (t.step s).destination rooted := by
  obtain ⟨climbs, names⟩ := t
  cases s with
  | root => exact absurd rfl hs
  | name n => simp [proceed, step, destination]
  | up =>
    rcases List.eq_nil_or_concat names with rfl | ⟨ns, n, rfl⟩
    · cases rooted with
      | true => rfl
      | false =>
        cases climbs with
        | zero => rfl
        | succ k => simp [proceed, step, destination, List.replicate_succ']
    · simp [proceed, step, destination, ← List.append_assoc]

/-- A step on the way to a location is a step of the trail too. A step up that finds no name takes
away the root, and from then on there is none. -/
theorem follow_location (rooted : Bool) (t : Trail) (hs : s ≠ .root) :
    follow (t.location rooted) s = (t.step s).location rooted := by
  obtain ⟨climbs, names⟩ := t
  cases s with
  | root => exact absurd rfl hs
  | name n => simp [follow, step, location, keepsRoot]
  | up =>
    rcases List.eq_nil_or_concat names with rfl | ⟨ns, n, rfl⟩
    · rw [follow, location, List.map_nil, List.append_nil]
      split <;> simp [step, location, keepsRoot]
    · simp [follow, step, location, keepsRoot, ← List.append_assoc]

/-- A fold over steps other than the root, from what each step does. -/
theorem foldl_of_step {f : List PathStep → PathStep → List PathStep} {g : Trail → List PathStep}
    (hstep : ∀ t s, s ≠ .root → f (g t) s = g (t.step s)) (hss : .root ∉ ss) (t : Trail) :
    ss.foldl f (g t) = g (ss.foldl step t) := by
  induction ss generalizing t with
  | nil => rfl
  | cons s ss ih =>
    obtain ⟨hs, hss⟩ := not_or.1 (mt List.mem_cons.2 hss)
    rw [List.foldl_cons, List.foldl_cons, hstep t s (Ne.symm hs), ih hss]

/-! ### What a destination and a location keep of a trail -/

theorem filterMap_name?_map (ns : List Name) : (ns.map .name).filterMap PathStep.name? = ns := by
  rw [List.filterMap_map]
  exact List.filterMap_some

/-- The names of a trail can be read off its destination. -/
theorem names_destination (rooted : Bool) (t : Trail) :
    (t.destination rooted).filterMap PathStep.name? = t.names := by
  rw [destination, List.filterMap_append, filterMap_name?_map]
  cases rooted <;> simp [PathStep.name?]

/-- And they can be read off its location. -/
theorem names_location (rooted : Bool) (t : Trail) :
    (t.location rooted).filterMap PathStep.name? = t.names := by
  rw [location, List.filterMap_append, filterMap_name?_map]
  split <;> rfl

/-- A destination begins at the root exactly if the path does. -/
theorem root_mem_destination_iff : .root ∈ t.destination rooted ↔ rooted = true := by
  cases rooted <;> simp [destination]

/-- A location begins at the root only if no step up went above it. -/
theorem root_mem_location_iff : .root ∈ t.location rooted ↔ t.keepsRoot rooted = true := by
  rw [location]
  split <;> simp [*]

theorem count_up_destination (t : Trail) :
    (t.destination false).count .up = t.climbs := by
  have hnames : (t.names.map PathStep.name).count .up = 0 := List.count_eq_zero.2 (by simp)
  rw [destination, List.count_append, hnames, if_neg Bool.false_ne_true, List.count_replicate_self,
    Nat.add_zero]

/-- **What a destination keeps**: the names, the root, and without a root the steps up from the
start. -/
theorem destination_eq_iff : t.destination rooted = t'.destination rooted' ↔
    t.names = t'.names ∧ rooted = rooted' ∧ (rooted = false → t.climbs = t'.climbs) := by
  constructor
  · intro h
    have hrooted : rooted = rooted' := Bool.eq_iff_iff.2 <| by
      rw [← root_mem_destination_iff (t := t), h, root_mem_destination_iff]
    refine ⟨?_, hrooted, ?_⟩
    · rw [← names_destination rooted t, h, names_destination]
    · rintro rfl
      subst hrooted
      rw [← count_up_destination t, h, count_up_destination]
  · rintro ⟨hnames, rfl, hclimbs⟩
    rw [destination, destination, hnames]
    cases rooted with
    | true => rfl
    | false => rw [hclimbs rfl]

/-- **What a location keeps**: the names, and the root as long as nothing climbed above it. -/
theorem location_eq_iff : t.location rooted = t'.location rooted' ↔
    t.names = t'.names ∧ t.keepsRoot rooted = t'.keepsRoot rooted' := by
  constructor
  · intro h
    refine ⟨?_, Bool.eq_iff_iff.2 ?_⟩
    · rw [← names_location rooted t, h, names_location]
    · rw [← root_mem_location_iff, h, root_mem_location_iff]
  · rintro ⟨hnames, hroot⟩
    rw [location, location, hnames, hroot]

end Trail

/-- The trail of a path. -/
def trail (path : Text) : Trail :=
  (steps path).foldl Trail.step {}

theorem root_notMem_filterMap_step? (parts : List Text) : .root ∉ parts.filterMap step? := by
  intro h
  obtain ⟨part, -, hpart⟩ := List.mem_filterMap.1 h
  rw [step?] at hpart
  split at hpart
  · cases hpart
  · split at hpart <;> cases hpart

/-- A fold over the steps of a path, by its trail. A path has the root as its first step or not at
all, so the steps behind are covered by `Trail.foldl_of_step`. -/
theorem foldl_steps {f : List PathStep → PathStep → List PathStep} {g : Trail → List PathStep}
    (hstep : ∀ t s, s ≠ .root → f (g t) s = g (t.step s))
    (hstart : (if isAbsolute path then [PathStep.root] else []).foldl f [] = g {}) :
    (steps path).foldl f [] = g (trail path) := by
  have htrail : (if isAbsolute path then [PathStep.root] else []).foldl Trail.step {} = {} := by
    split <;> rfl
  rw [trail, steps, List.foldl_append, List.foldl_append, hstart, htrail]
  exact Trail.foldl_of_step hstep (root_notMem_filterMap_step? _) _

/-- The destination of a path is that of its trail. -/
theorem destination_eq (path : Text) :
    destination path = (trail path).destination (isAbsolute path) := by
  refine foldl_steps (fun t s ↦ Trail.proceed_destination _ t) ?_
  cases isAbsolute path <;> rfl

/-- The location of a path is that of its trail. -/
theorem location_eq (path : Text) : location path = (trail path).location (isAbsolute path) := by
  refine foldl_steps (fun t s ↦ Trail.follow_location _ t) ?_
  cases isAbsolute path <;> rfl

/-- Whether the root is left in the location of a path. -/
def keepsRoot (path : Text) : Bool :=
  (trail path).keepsRoot (isAbsolute path)

/-! ### Paths that a store confuses -/

/-- Whether two paths with the same names have one location and two destinations, or two locations
and one destination: two absolute paths of which one loses its root, an absolute path that loses its
root and one that has none, or two paths that climb from the start by unlike numbers of steps. -/
def Confused (p q : Text) : Prop :=
  (trail p).names = (trail q).names ∧
    match isAbsolute p, isAbsolute q with
    | true, true => ¬ ((trail p).climbs = 0 ↔ (trail q).climbs = 0)
    | true, false => (trail p).climbs ≠ 0
    | false, true => (trail q).climbs ≠ 0
    | false, false => (trail p).climbs ≠ (trail q).climbs

/-- **Two paths are told apart** by their locations as by their destinations, unless they are
confused. -/
theorem location_eq_iff_destination_eq_iff :
    (location p = location q ↔ destination p = destination q) ↔ ¬ Confused p q := by
  rw [location_eq, location_eq, destination_eq, destination_eq, Trail.location_eq_iff,
    Trail.destination_eq_iff, Confused, Trail.keepsRoot, Trail.keepsRoot]
  cases isAbsolute p <;> cases isAbsolute q <;> simp

instance (p q : Text) : Decidable (Confused p q) :=
  decidable_of_iff (¬ (location p = location q ↔ destination p = destination q))
    (not_iff_comm.1 location_eq_iff_destination_eq_iff.symm)

end Path

/-! ### Stores -/

namespace TextStore

variable {files : List (Text × Text)} {path asked : Text}

/-- A store with the given texts and their paths, stored one after another. -/
def ofFiles (files : List (Text × Text)) : TextStore :=
  files.foldl (fun s f ↦ s.add f.1 f.2) {}

/-- The text stored last at a path that passes a test. -/
def lastText? (test : Text → Bool) (files : List (Text × Text)) : Option Text :=
  ((files.filter fun f ↦ test f.1).getLast?).map Prod.snd

/-- What is to be read at a path: the text stored last at a path with the same destination. -/
def atDestination? (files : List (Text × Text)) (path : Text) : Option Text :=
  lastText? (fun given ↦ Path.destination given == Path.destination path) files

theorem toOption_read (s : TextStore) (path : Text) :
    (s.read path).toOption = s.entries.lookup (Path.location path) := by
  rw [read]
  cases s.entries.lookup (Path.location path) <;> rfl

theorem toOption_read_add (s : TextStore) (given text path : Text) :
    ((s.add given text).read path).toOption =
      if Path.location given = Path.location path then some text else (s.read path).toOption := by
  rw [toOption_read, toOption_read, add, List.lookup_cons]
  split
  · next h => rw [if_pos (beq_iff_eq.1 h).symm]
  · next h => rw [if_neg (Ne.symm (beq_eq_false_iff_ne.1 h))]

theorem lastText?_concat (test : Text → Bool) (files : List (Text × Text)) (f : Text × Text) :
    lastText? test (files ++ [f]) = if test f.1 then some f.2 else lastText? test files := by
  rw [lastText?, List.filter_append]
  split
  · next h => simp [h]
  · next h => simp [h, lastText?]

/-- **A store is read by locations**: what is found is the text stored last at the location. -/
theorem toOption_read_ofFiles (files : List (Text × Text)) (path : Text) :
    ((ofFiles files).read path).toOption =
      lastText? (fun given ↦ Path.location given == Path.location path) files := by
  induction files using List.reverseRecOn with
  | nil => rfl
  | append_singleton files f ih =>
    have hadd : ofFiles (files ++ [f]) = (ofFiles files).add f.1 f.2 := List.foldl_append
    rw [hadd, toOption_read_add, lastText?_concat, ih]
    simp only [beq_iff_eq]

theorem eq_notStored_of_read {s : TextStore} {f : ReadFailure} (h : s.read path = .error f) :
    f = .notStored (Path.locationText (Path.location path)) := by
  rw [read] at h
  split at h
  · cases h
  · exact (Except.error.inj h).symm

theorem isSome_lastText?_singleton (test : Text → Bool) (given text : Text) :
    (lastText? test [(given, text)]).isSome = test given := by
  have hlast := lastText?_concat test [] (given, text)
  rw [List.nil_append] at hlast
  rw [hlast]
  cases test given <;> rfl

/-- **A store answers by destinations** at a path, whatever is stored at some paths and in whatever
order, if and only if the path is confused with none of them. Confused or not, it finds the text
stored last at a path with the same names that keeps its root as the path does, and fails only with
the location at which it has no text. -/
theorem reads_destination_iff (paths : List Text) (asked : Text) :
    ((∀ files, (∀ f ∈ files, f.1 ∈ paths) →
        ((ofFiles files).read asked).toOption = atDestination? files asked) ↔
      ∀ given ∈ paths, ¬ Path.Confused given asked) ∧
    (∀ files, ((ofFiles files).read asked).toOption =
      lastText? (fun given ↦ (Path.trail given).names = (Path.trail asked).names ∧
        Path.keepsRoot given = Path.keepsRoot asked) files) ∧
    ∀ files f, (ofFiles files).read asked = .error f →
      f = .notStored (Path.locationText (Path.location asked)) := by
  refine ⟨⟨fun h given hgiven ↦ ?_, fun h files hfiles ↦ ?_⟩, fun files ↦ ?_, fun files f ↦ ?_⟩
  · -- one text at the path is enough to show a difference
    have hone := congrArg Option.isSome (h [(given, [])] (by simpa using hgiven))
    rw [toOption_read_ofFiles, atDestination?, isSome_lastText?_singleton,
      isSome_lastText?_singleton, Bool.eq_iff_iff, beq_iff_eq, beq_iff_eq] at hone
    exact Path.location_eq_iff_destination_eq_iff.1 hone
  · rw [toOption_read_ofFiles, atDestination?, lastText?, lastText?]
    congr 2
    refine List.filter_congr fun f hf ↦ ?_
    have htold := Path.location_eq_iff_destination_eq_iff.2 (h _ (hfiles f hf))
    rw [Bool.eq_iff_iff, beq_iff_eq, beq_iff_eq, htold]
  · rw [toOption_read_ofFiles]
    congr 1
    funext given
    rw [Bool.eq_iff_iff, beq_iff_eq, decide_eq_true_eq, Path.location_eq, Path.location_eq,
      Path.Trail.location_eq_iff]
    rfl
  · exact eq_notStored_of_read

/-- Paths of a store: two to one place, one with a root, and one above the start. -/
def storedPaths : List Text :=
  ["metrics/bm25.metric", "metrics/./bm25.metric", "/a/b/../c/d.metric", "../d.metric"].map
    String.toList

/-- A path to the place of two of `storedPaths`. -/
def askedPath : Text :=
  "x/../metrics//bm25.metric".toList

theorem reads_destination_iff_storedPaths :
    (∀ given ∈ storedPaths, ¬ Path.Confused given askedPath) ∧
      (∀ files, (∀ f ∈ files, f.1 ∈ storedPaths) →
        ((ofFiles files).read askedPath).toOption = atDestination? files askedPath) ∧
      ((ofFiles (storedPaths.map fun p ↦ (p, p))).read askedPath).toOption =
        some "metrics/./bm25.metric".toList ∧
      ∀ f, (ofFiles []).read askedPath = .error f →
        f = .notStored "metrics/bm25.metric".toList := by
  obtain ⟨hiff, -, hfails⟩ := reads_destination_iff storedPaths askedPath
  have hnone : ∀ given ∈ storedPaths, ¬ Path.Confused given askedPath := by decide +kernel
  have hlocation : Path.locationText (Path.location askedPath) = "metrics/bm25.metric".toList := by
    decide +kernel
  have hall := hiff.2 hnone
  refine ⟨hnone, hall, ?_, fun f hf ↦ hlocation ▸ hfails [] f hf⟩
  rw [hall _ (List.forall_mem_map.2 fun p hp ↦ hp)]
  decide +kernel

/-- **A path can find the text of another place.** A text at a path without a root is found at one
that begins at the root, and at one that leads above the start. -/
theorem exists_read_at_other_destination : ∃ given beyondRoot aboveStart : Text,
    Path.isAbsolute given = false ∧ Path.isAbsolute beyondRoot = true ∧
      Path.destination aboveStart = .up :: Path.destination given ∧
      (ofFiles [(given, given)]).read beyondRoot = .ok given ∧
      (ofFiles [(given, given)]).read aboveStart = .ok given := by
  refine ⟨"a.metric".toList, "/../a.metric".toList, "../a.metric".toList, ?_⟩
  decide +kernel

end TextStore

end RankMetric

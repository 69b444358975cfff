import TreeManifest.Command
import TreeManifest.Proofs.Manifest.Lines
import TreeManifest.Proofs.Walk.Emitted

/-!
# The printed manifest gives the outcome back

What the command prints holds one line for each entry of its walk. Names, targets and attributes may
hold any bytes and characters, newlines among them: none of them reaches the text as it is, and every
walked entry is in the form that loading keeps, so the lines give the entries back without the
identities that they had during the walk.

## Main definitions

- `Command.Arguments.lister`, `Command.Arguments.execution`: the tree that a call walks, and the walk.

## Main statements

- `Walk.frames_of_result`: the manifest of an outcome frames its entries, whoever made which step.
- `Command.run_frames_outcome`: what the command prints frames the outcome of its walk.
-/

namespace TreeManifest

/-- A well-formed entry whose path does not end in a slash only loses its identity. -/
theorem Entry.stored_eq {entry : Entry} (h : entry.path.getLast? ≠ some Bytes.slash) :
    entry.stored = { entry with identity := none } := by
  rw [Entry.stored, Record.trimDirectoryPath_eq_self fun _ => .inr h]

namespace Walk

/-- The manifest of an outcome frames its entries, whatever the schedule of the walk was. -/
theorem frames_of_result {lister : Lister} {config : WalkConfig} {state : State}
    {outcome : WalkOutcome} (hlabels : lister.UsesLabels)
    (h : Reaches lister config (.start config) state)
    (hresult : result lister state = .ok outcome) :
    Manifest.Frames outcome.entries
      (outcome.entries.map fun entry => { entry with identity := none })
      (Manifest.render outcome.entries) := by
  have hstored : outcome.entries.map Entry.stored =
      outcome.entries.map fun entry => { entry with identity := none } :=
    List.map_congr_left fun entry hentry =>
      Entry.stored_eq (getLast?_path_of_result hlabels h hresult hentry)
  rw [← hstored]
  exact Manifest.frames_render (wellFormed_of_result h hresult)

/-- The walk of a lister in turns is one of its runs. -/
theorem exists_state_of_execute {lister : Lister} {config : WalkConfig} {fuel : Nat}
    {outcome : WalkOutcome} (h : (execute lister config fuel).result = .ok outcome) :
    ∃ state, Reaches lister config (.start config) state ∧ result lister state = .ok outcome := by
  refine ⟨_, reaches_runFrom lister config fuel (.refl _), ?_⟩
  unfold execute at h
  unfold result
  cases hroot : rootError? lister with
  | some error =>
    rw [hroot] at h
    cases h
  | none =>
    rw [hroot] at h
    dsimp only at h ⊢
    cases hconclude : conclude lister (runFrom lister config fuel (.start config)) with
    | error error =>
      rw [hconclude] at h
      cases h
    | ok found =>
      rw [hconclude] at h
      exact h

end Walk

namespace Command

/-- The tree that a call with the given arguments walks. -/
def Arguments.lister (arguments : Arguments) (surroundings : Surroundings) : Lister :=
  .native arguments.directory (arguments.options surroundings.privilege) surroundings.view

/-- The walk of a call, with its workers taking turns. -/
def Arguments.execution (arguments : Arguments) (surroundings : Surroundings) : Walk.Execution :=
  let config := arguments.config surroundings.processors
  Walk.execute (arguments.lister surroundings) config (surroundings.fuel config)

/-- A call prints the manifest of its walk, or nothing if the walk fails. -/
theorem output_dump (surroundings : Surroundings) (arguments : Arguments) :
    (dump surroundings arguments).output =
      match (arguments.execution surroundings).result with
      | .ok outcome => Manifest.render outcome.entries
      | .error _ => "" := by
  unfold dump Arguments.execution Arguments.lister
  dsimp only
  split <;> simp_all

/-- What the command prints holds one line for each entry of the outcome, in order, and reading the
lines one by one gives the entries back without their identities. It prints nothing when the walk
fails. The same holds of the manifest of any other schedule of the walk. -/
theorem run_frames_outcome (surroundings : Surroundings) (arguments : Arguments)
    (hlabels : (arguments.lister surroundings).UsesLabels) :
    (∀ words, Request.read words = .ok (.dump arguments) →
      match (arguments.execution surroundings).result with
      | .ok outcome => Manifest.Frames outcome.entries
          (outcome.entries.map fun entry => { entry with identity := none })
          (run surroundings words).output
      | .error _ => (run surroundings words).output = "") ∧
    ∀ config state outcome,
      Walk.Reaches (arguments.lister surroundings) config (.start config) state →
      Walk.result (arguments.lister surroundings) state = .ok outcome →
      Manifest.Frames outcome.entries
        (outcome.entries.map fun entry => { entry with identity := none })
        (Manifest.render outcome.entries) := by
  refine ⟨fun words hread => ?_, fun config state outcome h hresult =>
    Walk.frames_of_result hlabels h hresult⟩
  have hrun : run surroundings words = dump surroundings arguments := by
    rw [run, hread]
    rfl
  have houtput := output_dump surroundings arguments
  rw [hrun]
  cases hwalk : (arguments.execution surroundings).result with
  | error error =>
    rw [hwalk] at houtput
    exact houtput
  | ok outcome =>
    rw [hwalk] at houtput
    obtain ⟨state, hreaches, hresult⟩ := Walk.exists_state_of_execute hwalk
    dsimp only at houtput ⊢
    rw [houtput]
    exact Walk.frames_of_result hlabels hreaches hresult

/-- A directory with a symlink and a file, in whose names, target and attribute newlines stand. -/
def newlineSurroundings : Surroundings where
  view := {
    stat := fun _ => .ok ⟨0o040755, 0, 0, 0, 0, 2, 0, ⟨1, 6⟩⟩
    lstat := fun path => .ok
      (if path = [0x72, 0x2F, 0x61, 0x0A] then ⟨0o120777, 3, 0, 0, 0, 1, 0, ⟨1, 7⟩⟩
        else ⟨0o100644, 1, 0, 0, 0, 1, 0, ⟨1, 8⟩⟩)
    readLink := fun _ => .ok [0x78, 0x0A, 0x79]
    readDirectory := fun path =>
      if path = [0x72] then .ok [.ok [0x61, 0x0A], .ok [0x63]] else .error (.os .enotdir)
    attributeNames := fun _ => .ok [.text "user.\n"]
    attributeValue := fun _ _ => .ok (some [0x0A])
    openObject := fun _ _ => .error (.os .eacces)
    flagWord := fun _ => .error (.os .enotty) }
  privilege := .privileged
  processors := 1
  logFilter := none
  time := ""
  fuel := fun _ => 40

def plainArguments : Arguments := ⟨[0x72], none, none, []⟩

theorem usesLabels_newlineSurroundings :
    (plainArguments.lister newlineSurroundings).UsesLabels := by
  intro directory names name _ hnames hname
  have hread : newlineSurroundings.view.readDirectory
      ((plainArguments.lister newlineSurroundings).directory directory) = .ok names := hnames
  simp only [newlineSurroundings] at hread
  split at hread
  · cases hread
    rcases List.mem_pair.1 hname with hname | hname <;> cases hname <;> constructor <;> decide
  · cases hread

/-- Both entries of the directory are given back by the two lines that are printed. -/
theorem run_frames_outcome_newlines :
    (plainArguments.lister newlineSurroundings).UsesLabels ∧
    Request.read [[0x72]] = .ok (.dump plainArguments) ∧
    ∃ outcome, (plainArguments.execution newlineSurroundings).result = .ok outcome ∧
      outcome.entries.map (fun entry => (entry.path, entry.link)) =
        [([0x61, 0x0A], some [0x78, 0x0A, 0x79]), ([0x63], none)] ∧
      Manifest.Frames outcome.entries
        (outcome.entries.map fun entry => { entry with identity := none })
        (run newlineSurroundings [[0x72]]).output := by
  have hread : Request.read [[0x72]] = .ok (.dump plainArguments) := by
    cbv
  have hlook : (plainArguments.execution newlineSurroundings).result.toOption.map
      (fun outcome => outcome.entries.map fun entry => (entry.path, entry.link)) =
        some [([0x61, 0x0A], some [0x78, 0x0A, 0x79]), ([0x63], none)] := by
    cbv
  obtain ⟨outcome, houtcome, hentries⟩ := Option.map_eq_some_iff.1 hlook
  have hok := Lister.eq_ok_of_toOption_eq_some houtcome
  have hframes := (run_frames_outcome newlineSurroundings plainArguments
    usesLabels_newlineSurroundings).1 [[0x72]] hread
  rw [hok] at hframes
  exact ⟨usesLabels_newlineSurroundings, hread, outcome, hok, hentries, hframes⟩

end Command

end TreeManifest

import Scenarist.Proofs.Index.Journal

set_option autoImplicit false

/-! # Scans among other changes

A scan reads its files one by one, and anything can happen between two of its parts: single documents are
entered and removed, the index is marked dirty, other scans begin, go on, fail and end. Scans have numbers
in the order in which they began, and keep them after they have ended.

What a scan puts into the index comes from its own reads alone, so a document that was entered since is
lost unless the scan read the same of it. Whether the index can be relied on afterwards is told by the
dirty marks alone, so a mark is not lost: only a scan that began after it can take it back.

Main statements: `Traffic.run_rebuild` (what a scan does that nothing disturbs),
`Traffic.recordOf?_or_dirty_iff` (what becomes of a document that was entered during a scan) and
`Traffic.dirty_or_ended` (how long the index stays dirty). -/

namespace Scenarist

/-! ## Changes of the index -/

/-- A change of the index that is no part of a scan. -/
inductive IndexChange where
  /-- A document is entered. -/
  | upsert (uri text : Text)
  /-- A document is removed. -/
  | remove (uri : Text)
  /-- The index is marked dirty. -/
  | markDirty (now : Seconds) (timersServed : Bool)
  /-- Something happened to a path. -/
  | noteEvent (cwd path : Path) (now : Seconds) (timersServed : Bool)
  /-- Refreshes are dropped, begun or ended. -/
  | reschedule (change : Refresher → Refresher)

namespace Index

/-- The index after a change. An event that the index does not care about and a document that is refused
leave it as it is. -/
def react (index : Index) : IndexChange → Index
  | .upsert uri text => match index.tryUpsert uri text with
    | .ok (_, next) => next
    | .error _ => index
  | .remove uri => (index.remove uri).2
  | .markDirty now timersServed => index.markDirty now timersServed
  | .noteEvent cwd path now timersServed =>
    if index.tracks cwd path then index.markDirty now timersServed else index
  | .reschedule change => { index with refresher := change index.refresher }

/-- Whether a change marks the index dirty. -/
def IsMarkedBy (index : Index) : IndexChange → Prop
  | .markDirty _ _ => True
  | .noteEvent cwd path _ _ => index.tracks cwd path = true
  | _ => False

variable {index : Index}

theorem react_noteEvent (index : Index) (cwd path : Path) (now : Seconds) (timersServed : Bool) :
    index.react (.noteEvent cwd path now timersServed) =
      if index.tracks cwd path then index.markDirty now timersServed else index := rfl

theorem react_of_isMarkedBy {change : IndexChange} (h : index.IsMarkedBy change) :
    (index.react change).state = .dirty ∧
      (index.react change).dirtyMarks = index.dirtyMarks + 1 := by
  cases change with
  | markDirty now timersServed => exact ⟨rfl, rfl⟩
  | noteEvent cwd path now timersServed =>
      have htracked : index.tracks cwd path = true := h
      rw [react_noteEvent, if_pos htracked]
      exact ⟨rfl, rfl⟩
  | upsert | remove | reschedule => exact h.elim

theorem upsert_keeps (index : Index) (uri text : Text) :
    (index.upsert uri text).2.dirtyMarks = index.dirtyMarks ∧
      (index.state = .dirty → (index.upsert uri text).2.state = .dirty) := by
  unfold upsert enter remove
  split
  · split
    · exact ⟨rfl, id⟩
    · refine ⟨rfl, fun hdirty => ?_⟩
      simp [bump, hdirty]
  · split <;> exact ⟨rfl, id⟩

theorem remove_keeps (index : Index) (uri : Text) :
    (index.remove uri).2.dirtyMarks = index.dirtyMarks ∧
      (index.remove uri).2.state = index.state := by
  unfold remove
  split <;> exact ⟨rfl, rfl⟩

/-- What holds of the index itself and of all that single changes make of it holds whatever the change is:
a document that is refused and an event that the index does not care about leave it as it is. -/
theorem react_induction {motive : Index → Prop} (same : motive index)
    (upsert : ∀ uri text, motive (index.upsert uri text).2) (remove : ∀ uri, motive (index.remove uri).2)
    (mark : ∀ now timersServed, motive (index.markDirty now timersServed))
    (reschedule : ∀ refresher, motive { index with refresher := refresher }) (change : IndexChange) :
    motive (index.react change) := by
  cases change with
  | upsert uri text =>
      cases hresult : index.tryUpsert uri text with
      | error fault => simpa only [react, hresult] using same
      | ok result => simpa only [react, hresult, tryUpsert_eq_ok hresult] using upsert uri text
  | remove uri => exact remove uri
  | markDirty now timersServed => exact mark now timersServed
  | noteEvent cwd path now timersServed =>
      rw [react_noteEvent]
      split
      · exact mark now timersServed
      · exact same
  | reschedule change => exact reschedule _

/-- No change takes a dirty mark back, and none but a scan's end makes a dirty index clean. -/
theorem react_keeps (index : Index) (change : IndexChange) :
    index.dirtyMarks ≤ (index.react change).dirtyMarks ∧
      (index.state = .dirty → (index.react change).state = .dirty) := by
  refine react_induction (motive := fun next =>
    index.dirtyMarks ≤ next.dirtyMarks ∧ (index.state = .dirty → next.state = .dirty))
    ⟨le_refl _, id⟩ ?upsert ?remove (fun _ _ => ⟨Nat.le_succ _, fun _ => rfl⟩) (fun _ => ⟨le_refl _, id⟩) change
  case upsert =>
    intro uri text
    obtain ⟨hmarks, hstate⟩ := upsert_keeps index uri text
    exact ⟨hmarks.ge, hstate⟩
  case remove =>
    intro uri
    obtain ⟨hmarks, hstate⟩ := remove_keeps index uri
    exact ⟨hmarks.ge, hstate.trans⟩

theorem scanRoot_react (index : Index) (change : IndexChange) :
    (index.react change).scanRoot = index.scanRoot :=
  react_induction (motive := fun next => next.scanRoot = index.scanRoot) rfl (scanRoot_upsert index)
    (scanRoot_remove index) (fun _ _ => rfl) (fun _ => rfl) change

end Index

/-! ## Scans and their parts -/

/-- A scan that reads its files. -/
structure Sweep where
  scan : Scan
  /-- The files that it has taken in, with what reading them gave. -/
  taken : Table (Except StoreError Text) := []
  /-- What reading the next file gave, until the scan takes it in. -/
  inHand : Option (Except StoreError Text) := none
  deriving DecidableEq

def Sweep.files (sweep : Sweep) : List Text := sweep.taken.keys ++ sweep.scan.remaining

/-- The files that a scan has read: those that it has taken in, and the one that it has in hand. -/
def Sweep.read (sweep : Sweep) : Table (Except StoreError Text) :=
  match sweep.scan.remaining, sweep.inHand with
  | uri :: _, some held => sweep.taken ++ [(uri, held)]
  | _, _ => sweep.taken

theorem Sweep.read_of_inHand_none {sweep : Sweep} (h : sweep.inHand = none) : sweep.read = sweep.taken := by
  unfold read
  rw [h]
  split
  · next hhand => exact absurd hhand (by simp)
  · rfl

theorem Sweep.read_of_remaining_nil {sweep : Sweep} (h : sweep.scan.remaining = []) :
    sweep.read = sweep.taken := by
  unfold read
  rw [h]

theorem Sweep.read_of_inHand_some {sweep : Sweep} {uri : Text} {rest : List Text}
    {held : Except StoreError Text} (hremaining : sweep.scan.remaining = uri :: rest)
    (hhand : sweep.inHand = some held) : sweep.read = sweep.taken ++ [(uri, held)] := by
  unfold read
  rw [hremaining, hhand]

/-- How far a scan has come. -/
inductive Stage where
  /-- Its files are being listed; the index had so many dirty marks when it began. -/
  | listing (marks : Nat)
  /-- It reads its files. -/
  | sweeping (sweep : Sweep)
  /-- It has ended; `whole` says whether it went through all of its files. -/
  | ended (whole : Bool)
  deriving DecidableEq

/-- A part of a scan: a file is read, or taken in, or the records are put into the index. The scan looks
before each file whether it was cancelled, so after the last one it goes on to its end. -/
def Sweep.goOn (sweep : Sweep) (index : Index) (cancelled : Bool) (fetched : Except StoreError Text) :
    Stage × Index :=
  match sweep.scan.remaining, sweep.inHand with
  | [], _ => (.ended true, index.install sweep.scan false)
  | uri :: _, some held => match sweep.scan.tryTake index.sourceOf uri held with
    | .ok scan => (.sweeping { scan, taken := sweep.taken ++ [(uri, held)] }, index)
    | .error _ => (.ended false, index)
  | _ :: _, none =>
    if cancelled then (.ended false, index.install sweep.scan true)
    else (.sweeping { sweep with inHand := some fetched }, index)

namespace Sweep

variable {sweep : Sweep} {uri : Text} {rest : List Text}

theorem goOn_of_remaining_nil (h : sweep.scan.remaining = []) (index : Index) (cancelled : Bool)
    (fetched : Except StoreError Text) :
    sweep.goOn index cancelled fetched = (.ended true, index.install sweep.scan false) := by
  unfold goOn
  rw [h]

theorem goOn_cancelled (hremaining : sweep.scan.remaining = uri :: rest) (hhand : sweep.inHand = none)
    (index : Index) (fetched : Except StoreError Text) :
    sweep.goOn index true fetched = (.ended false, index.install sweep.scan true) := by
  unfold goOn
  rw [hremaining, hhand]
  rfl

theorem goOn_fetch (hremaining : sweep.scan.remaining = uri :: rest) (hhand : sweep.inHand = none)
    (index : Index) (fetched : Except StoreError Text) :
    sweep.goOn index false fetched = (.sweeping { sweep with inHand := some fetched }, index) := by
  unfold goOn
  rw [hremaining, hhand]
  rfl

theorem goOn_take (hremaining : sweep.scan.remaining = uri :: rest) {held : Except StoreError Text}
    (hhand : sweep.inHand = some held) (index : Index) (cancelled : Bool)
    (fetched : Except StoreError Text) :
    sweep.goOn index cancelled fetched = (match sweep.scan.tryTake index.sourceOf uri held with
      | .ok scan => .sweeping { scan, taken := sweep.taken ++ [(uri, held)] }
      | .error _ => .ended false, index) := by
  unfold goOn
  rw [hremaining, hhand]
  dsimp only
  split <;> rfl

end Sweep

/-- What happens. -/
inductive IndexEvent where
  /-- The index changes. -/
  | change (change : IndexChange)
  /-- A refresh begins. -/
  | beginRefresh
  /-- A rebuild from these files begins. -/
  | beginRebuild (uris : List Text)
  /-- The files of a refresh have been listed. -/
  | list (number : Nat) (uris : List Text)
  /-- A scan fails: its files cannot be listed, or it is broken off. -/
  | fail (number : Nat)
  /-- A scan goes on. If it reads a file now, `fetched` is what this gives. -/
  | goOn (number : Nat) (cancelled : Bool) (fetched : Except StoreError Text)

/-- An index and the scans over it, in the order in which they began. -/
structure Traffic where
  index : Index
  scans : List Stage := []

namespace Traffic

/-- The index and the scans after an event. A refresh without a directory to scan is refused. -/
def step (traffic : Traffic) : IndexEvent → Traffic
  | .change change => { traffic with index := traffic.index.react change }
  | .beginRefresh =>
    if traffic.index.scanRoot.isSome then
      { traffic with scans := traffic.scans ++ [.listing traffic.index.dirtyMarks] }
    else traffic
  | .beginRebuild uris =>
    { traffic with scans := traffic.scans ++ [.sweeping { scan := traffic.index.beginScan uris }] }
  | .list number uris => match traffic.scans[number]? with
    | some (.listing marks) =>
      { traffic with
          scans := traffic.scans.set number (.sweeping { scan := { remaining := uris, marks } }) }
    | _ => traffic
  | .fail number => match traffic.scans[number]? with
    | some (.listing _) | some (.sweeping _) =>
      { traffic with scans := traffic.scans.set number (.ended false) }
    | _ => traffic
  | .goOn number cancelled fetched => match traffic.scans[number]? with
    | some (.sweeping sweep) =>
      let (stage, index) := sweep.goOn traffic.index cancelled fetched
      ⟨index, traffic.scans.set number stage⟩
    | _ => traffic

def run (traffic : Traffic) (events : List IndexEvent) : Traffic := events.foldl step traffic

theorem run_append (traffic : Traffic) (before after : List IndexEvent) :
    traffic.run (before ++ after) = (traffic.run before).run after := List.foldl_append ..

theorem run_goOn {traffic : Traffic} {number : Nat} {sweep : Sweep}
    (h : traffic.scans[number]? = some (.sweeping sweep)) (cancelled : Bool)
    (fetched : Except StoreError Text) (events : List IndexEvent) :
    traffic.run (.goOn number cancelled fetched :: events) =
      run ⟨(sweep.goOn traffic.index cancelled fetched).2,
        traffic.scans.set number (sweep.goOn traffic.index cancelled fetched).1⟩ events := by
  have hstep : traffic.step (.goOn number cancelled fetched) =
      ⟨(sweep.goOn traffic.index cancelled fetched).2,
        traffic.scans.set number (sweep.goOn traffic.index cancelled fetched).1⟩ := by
    simp only [step, h]
  unfold run
  rw [List.foldl_cons, hstep]

/-- The parts of a scan that reads these files, from the first read to its end. -/
def partsOf (number : Nat) (files : Table (Except StoreError Text)) : List IndexEvent :=
  files.flatMap (fun file => [.goOn number false file.2, .goOn number false (.ok [])]) ++
    [.goOn number false (.ok [])]

/-- A scan that nothing disturbs takes in its files one after the other and puts their records into the
index. -/
theorem run_partsOf (files : Table (Except StoreError Text)) {traffic : Traffic} {number : Nat}
    {scan scan' : Scan} {taken : Table (Except StoreError Text)}
    (hscan : traffic.scans[number]? = some (.sweeping { scan, taken }))
    (hremaining : scan.remaining = files.keys)
    (htaken : files.foldlM (fun scan file => Scan.tryTake scan traffic.index.sourceOf file.1 file.2) scan =
      .ok scan') :
    traffic.run (partsOf number files) =
      ⟨traffic.index.install scan' false, traffic.scans.set number (.ended true)⟩ := by
  induction files generalizing traffic scan taken with
  | nil =>
      obtain rfl : scan = scan' := Except.ok.inj htaken
      exact (run_goOn hscan _ _ _).trans (by rw [Sweep.goOn_of_remaining_nil hremaining]; rfl)
  | cons file files ih =>
      rw [List.foldlM_cons] at htaken
      cases hfile : scan.tryTake traffic.index.sourceOf file.1 file.2 with
      | error fault =>
          rw [hfile] at htaken
          exact absurd htaken (by simp [bind, Except.bind])
      | ok between =>
          rw [hfile] at htaken
          have hlt := (List.getElem?_eq_some_iff.1 hscan).1
          have htail : between.remaining = Table.keys files := by
            rw [Scan.tryTake_eq_ok hfile, Scan.take_eq, hremaining]
            rfl
          -- the file is read and taken in, and the rest of the files is left
          have hparts : traffic.run (partsOf number (file :: files)) =
              run ⟨traffic.index, traffic.scans.set number
                (.sweeping { scan := between, taken := taken ++ [file] })⟩ (partsOf number files) := by
            show traffic.run (.goOn number false file.2 :: .goOn number false (.ok []) ::
              partsOf number files) = _
            rw [run_goOn hscan, Sweep.goOn_fetch hremaining rfl, run_goOn (List.getElem?_set_self hlt),
              Sweep.goOn_take hremaining rfl, List.set_set, hfile]
          rw [hparts, @ih ⟨_, _⟩ _ _ (List.getElem?_set_self hlt) htail htaken, List.set_set]

/-- A rebuild that nothing disturbs makes the index anew from its files. -/
theorem run_rebuild {traffic : Traffic} {files : Table (Except StoreError Text)} {next : Index}
    (h : traffic.index.rebuild files = .ok next) :
    traffic.run (.beginRebuild files.keys :: partsOf traffic.scans.length files) =
      ⟨next, traffic.scans ++ [.ended true]⟩ := by
  unfold Index.rebuild at h
  cases hscan : files.foldlM (fun scan file => Scan.tryTake scan traffic.index.sourceOf file.1 file.2)
      (traffic.index.beginScan files.keys) with
  | error fault =>
      rw [hscan] at h
      exact absurd h (by simp [Except.map])
  | ok scan =>
      rw [hscan] at h
      obtain rfl : traffic.index.install scan false = next := Except.ok.inj h
      show run ⟨traffic.index,
          traffic.scans ++ [.sweeping { scan := traffic.index.beginScan files.keys }]⟩
        (partsOf traffic.scans.length files) = _
      rw [@run_partsOf files ⟨_, _⟩ _ _ _ _ List.getElem?_concat_length rfl hscan]
      simp

end Traffic

/-! ## What a part of a scan does -/

namespace Stage

/-- The dirty marks that the index had when a scan began that is under way. -/
def marks? : Stage → Option Nat
  | .listing marks => some marks
  | .sweeping sweep => some sweep.scan.marks
  | .ended _ => none

/-- The parts of a scan that leave the index alone. -/
inductive Moves (source : Text → Source) : Stage → Stage → Prop where
  | list {marks : Nat} (uris : List Text) :
    Moves source (.listing marks) (.sweeping { scan := { remaining := uris, marks } })
  | fetch {sweep : Sweep} {uri : Text} {rest : List Text} (hremaining : sweep.scan.remaining = uri :: rest)
    (hhand : sweep.inHand = none) (fetched : Except StoreError Text) :
    Moves source (.sweeping sweep) (.sweeping { sweep with inHand := some fetched })
  | take {sweep : Sweep} {uri : Text} {rest : List Text} {held : Except StoreError Text}
    (hremaining : sweep.scan.remaining = uri :: rest) (hhand : sweep.inHand = some held) :
    Moves source (.sweeping sweep) (.sweeping {
      scan := sweep.scan.take source uri held, taken := sweep.taken ++ [(uri, held)] })
  | fail {stage : Stage} {marks : Nat} (hmarks : stage.marks? = some marks) :
    Moves source stage (.ended false)

/-- What becomes of a scan: it keeps the marks that it began with and the files that it has read, and once
it has ended nothing happens to it any more. -/
def LeadsTo : Stage → Stage → Prop
  | .listing marks, .listing marks' => marks' = marks
  | .listing marks, .sweeping sweep => sweep.scan.marks = marks
  | .sweeping sweep, .sweeping sweep' => sweep'.scan.marks = sweep.scan.marks ∧ sweep.read <+: sweep'.read
  | .sweeping _, .listing _ => False
  | .ended whole, stage => stage = .ended whole
  | _, .ended _ => True

/-- Whether the records of a scan are those of the files that it has taken in. -/
def IsSound (source : Text → Source) : Stage → Prop
  | .sweeping sweep => sweep.scan.found = recordsOf source sweep.taken
  | _ => True

variable {source : Text → Source} {a b c : Stage}

theorem LeadsTo.refl (stage : Stage) : stage.LeadsTo stage := by
  cases stage with
  | listing marks => exact rfl
  | sweeping sweep => exact ⟨rfl, List.prefix_rfl⟩
  | ended whole => exact rfl

theorem LeadsTo.trans (hab : a.LeadsTo b) (hbc : b.LeadsTo c) : a.LeadsTo c := by
  cases a with
  | ended whole =>
      obtain rfl : b = .ended whole := hab
      exact hbc
  | listing marks =>
      cases b with
      | ended whole =>
          obtain rfl : c = .ended whole := hbc
          trivial
      | listing marks' =>
          obtain rfl : marks' = marks := hab
          exact hbc
      | sweeping sweep =>
          cases c with
          | ended whole => trivial
          | listing marks' => exact hbc.elim
          | sweeping sweep' => exact hbc.1.trans hab
  | sweeping sweep =>
      cases b with
      | ended whole =>
          obtain rfl : c = .ended whole := hbc
          trivial
      | listing marks => exact hab.elim
      | sweeping sweep' =>
          cases c with
          | ended whole => trivial
          | listing marks' => exact hbc.elim
          | sweeping sweep'' => exact ⟨hbc.1.trans hab.1, hab.2.trans hbc.2⟩

theorem LeadsTo.marks?_eq_some (h : a.LeadsTo b) {marks : Nat} (hb : b.marks? = some marks) :
    a.marks? = some marks := by
  cases a with
  | ended whole =>
      obtain rfl : b = .ended whole := h
      exact hb
  | listing begun =>
      cases b with
      | listing marks' => exact (congrArg some (Eq.symm h)).trans hb
      | sweeping sweep => exact (congrArg some (Eq.symm h)).trans hb
      | ended whole => exact absurd hb (by simp [marks?])
  | sweeping sweep =>
      cases b with
      | listing marks' => exact h.elim
      | sweeping sweep' => exact (congrArg some h.1.symm).trans hb
      | ended whole => exact absurd hb (by simp [marks?])

theorem leadsTo_ended {marks : Nat} (h : a.marks? = some marks) (whole : Bool) :
    a.LeadsTo (.ended whole) := by
  cases a with
  | listing marks => trivial
  | sweeping sweep => trivial
  | ended whole' => exact absurd h (by simp [marks?])

theorem Moves.leadsTo (h : Moves source a b) : a.LeadsTo b := by
  cases h with
  | list uris => exact rfl
  | @fetch sweep uri rest hremaining hhand fetched =>
      refine ⟨rfl, ?_⟩
      have hread : Sweep.read { sweep with inHand := some fetched } = sweep.taken ++ [(uri, fetched)] :=
        Sweep.read_of_inHand_some hremaining rfl
      rw [hread, Sweep.read_of_inHand_none hhand]
      exact List.prefix_append ..
  | @take sweep uri rest held hremaining hhand =>
      -- what was in hand is now among what was taken in
      have hread : Sweep.read {
          scan := sweep.scan.take source uri held, taken := sweep.taken ++ [(uri, held)] } = sweep.read := by
        rw [Sweep.read_of_inHand_some hremaining hhand, Sweep.read_of_inHand_none rfl]
      exact ⟨rfl, [], (List.append_nil _).trans hread.symm⟩
  | fail hmarks => exact leadsTo_ended hmarks false

theorem Moves.marks_le (h : Moves source a b) {bound marks : Nat}
    (ha : ∀ marks, a.marks? = some marks → marks ≤ bound) (hb : b.marks? = some marks) :
    marks ≤ bound := by
  cases h with
  | list uris => exact ha _ hb
  | fetch => exact ha _ hb
  | take => exact ha _ hb
  | fail => exact absurd hb (by simp [marks?])

theorem Moves.isSound (h : Moves source a b) (ha : a.IsSound source) : b.IsSound source := by
  cases h with
  | list uris => exact rfl
  | fetch => exact ha
  | @take sweep uri rest held hremaining hhand =>
      show (sweep.scan.take source uri held).found = recordsOf source (sweep.taken ++ [(uri, held)])
      rw [recordsOf_concat, ← show sweep.scan.found = recordsOf source sweep.taken from ha,
        Scan.take_eq sweep.scan source (uri, held)]
  | fail => trivial

end Stage

namespace Traffic

/-- What an event can do: it changes the index, begins a scan, moves one on, or ends one with its records
put into the index. -/
inductive Steps (traffic : Traffic) : Traffic → Prop where
  | change (change : IndexChange) : Steps traffic { traffic with index := traffic.index.react change }
  | skip : Steps traffic traffic
  | begin {stage : Stage} (hmarks : stage.marks? = some traffic.index.dirtyMarks)
    (hsound : stage.IsSound traffic.index.sourceOf) :
    Steps traffic { traffic with scans := traffic.scans ++ [stage] }
  | move {number : Nat} {stage stage' : Stage} (hstage : traffic.scans[number]? = some stage)
    (hmoves : stage.Moves traffic.index.sourceOf stage') :
    Steps traffic { traffic with scans := traffic.scans.set number stage' }
  | install {number : Nat} {sweep : Sweep} (hstage : traffic.scans[number]? = some (.sweeping sweep))
    (cut : Bool) :
    Steps traffic ⟨traffic.index.install sweep.scan cut, traffic.scans.set number (.ended !cut)⟩

theorem steps_step (traffic : Traffic) (event : IndexEvent) : traffic.Steps (traffic.step event) := by
  cases event with
  | change change => exact .change change
  | beginRefresh =>
      simp only [step]
      split
      · exact .begin rfl trivial
      · exact .skip
  | beginRebuild uris => exact .begin rfl rfl
  | list number uris =>
      simp only [step]
      split
      · next hstage => exact .move hstage (.list uris)
      · exact .skip
  | fail number =>
      simp only [step]
      split
      · next hstage => exact .move hstage (.fail rfl)
      · next hstage => exact .move hstage (.fail rfl)
      · exact .skip
  | goOn number cancelled fetched =>
      simp only [step]
      split
      · next sweep hstage =>
        unfold Sweep.goOn
        split
        · exact .install hstage false
        · next uri rest held hremaining hhand =>
          split
          · next scan htaken =>
            obtain rfl := @Scan.tryTake_eq_ok _ _ _ (uri, held) htaken
            exact .move hstage (.take hremaining hhand)
          · exact .move hstage (.fail rfl)
        · next hremaining hhand =>
          split
          · exact .install hstage true
          · exact .move hstage (.fetch hremaining hhand fetched)
      · exact .skip

variable {traffic next : Traffic} {event : IndexEvent} {number : Nat} {stage : Stage}

/-! ## What a run keeps -/

theorem Steps.leadsTo (h : traffic.Steps next) (hstage : traffic.scans[number]? = some stage) :
    ∃ later, next.scans[number]? = some later ∧ stage.LeadsTo later := by
  have hlt : number < traffic.scans.length := (List.getElem?_eq_some_iff.1 hstage).1
  cases h with
  | change | skip => exact ⟨stage, hstage, .refl stage⟩
  | begin => exact ⟨stage, (List.getElem?_append_left hlt).trans hstage, .refl stage⟩
  | @move moved before after hbefore hmoves =>
      -- the scan itself moves on, or another one does
      by_cases heq : moved = number
      · subst heq
        obtain rfl : before = stage := Option.some.inj (hbefore.symm.trans hstage)
        exact ⟨after, List.getElem?_set_self hlt, hmoves.leadsTo⟩
      · exact ⟨stage, (List.getElem?_set_ne heq).trans hstage, .refl stage⟩
  | @install ended sweep hsweep cut =>
      by_cases heq : ended = number
      · subst heq
        obtain rfl : .sweeping sweep = stage := Option.some.inj (hsweep.symm.trans hstage)
        exact ⟨.ended !cut, List.getElem?_set_self hlt, trivial⟩
      · exact ⟨stage, (List.getElem?_set_ne heq).trans hstage, .refl stage⟩

theorem leadsTo_run (events : List IndexEvent) (hstage : traffic.scans[number]? = some stage) :
    ∃ later, (traffic.run events).scans[number]? = some later ∧ stage.LeadsTo later := by
  induction events generalizing traffic stage with
  | nil => exact ⟨stage, hstage, .refl stage⟩
  | cons event events ih =>
      obtain ⟨moved, hmoved, hto⟩ := (steps_step traffic event).leadsTo hstage
      obtain ⟨later, hlater, hfrom⟩ := ih hmoved
      exact ⟨later, hlater, hto.trans hfrom⟩

theorem Steps.dirtyMarks_le (h : traffic.Steps next) :
    traffic.index.dirtyMarks ≤ next.index.dirtyMarks := by
  cases h with
  | change change => exact (traffic.index.react_keeps change).1
  | skip | begin | move | install => exact le_refl _

/-- Whether no scan began with more dirty marks than the index has. -/
def IsBounded (traffic : Traffic) : Prop :=
  ∀ stage ∈ traffic.scans, ∀ marks, stage.marks? = some marks → marks ≤ traffic.index.dirtyMarks

theorem Steps.isBounded (h : traffic.Steps next) (hbounded : traffic.IsBounded) : next.IsBounded := by
  intro stage hmem marks hmarks
  -- the marks of the index only grow, so those that it had before are enough
  refine le_trans ?_ h.dirtyMarks_le
  cases h with
  | change | skip => exact hbounded stage hmem marks hmarks
  | begin hbegun =>
      rcases List.mem_append.1 hmem with hmem | hmem
      · exact hbounded stage hmem marks hmarks
      · rw [List.mem_singleton.1 hmem] at hmarks
        exact (Option.some.inj (hmarks.symm.trans hbegun)).le
  | move hbefore hmoves =>
      rcases List.mem_or_eq_of_mem_set hmem with hmem | rfl
      · exact hbounded stage hmem marks hmarks
      · exact hmoves.marks_le (hbounded _ (List.mem_of_getElem? hbefore)) hmarks
  | install hsweep cut =>
      rcases List.mem_or_eq_of_mem_set hmem with hmem | rfl
      · exact hbounded stage hmem marks hmarks
      · exact absurd hmarks (by simp [Stage.marks?])

theorem isBounded_run (h : traffic.IsBounded) (events : List IndexEvent) :
    (traffic.run events).IsBounded := by
  induction events generalizing traffic with
  | nil => exact h
  | cons event events ih => exact ih ((steps_step traffic event).isBounded h)

theorem Steps.sourceOf_eq (h : traffic.Steps next) :
    next.index.sourceOf = traffic.index.sourceOf := by
  cases h with
  | change change => exact Chronicle.sourceOf_congr (traffic.index.scanRoot_react change)
  | skip | begin | move | install => rfl

theorem sourceOf_run (traffic : Traffic) (events : List IndexEvent) :
    (traffic.run events).index.sourceOf = traffic.index.sourceOf := by
  induction events generalizing traffic with
  | nil => rfl
  | cons event events ih => exact (ih _).trans (steps_step traffic event).sourceOf_eq

/-- Whether the records of every scan are those of the files that it has taken in. -/
def IsSound (traffic : Traffic) : Prop := ∀ stage ∈ traffic.scans, stage.IsSound traffic.index.sourceOf

theorem Steps.isSound (h : traffic.Steps next) (hsound : traffic.IsSound) : next.IsSound := by
  intro stage hmem
  rw [h.sourceOf_eq]
  cases h with
  | change | skip => exact hsound stage hmem
  | begin _ hbegun =>
      rcases List.mem_append.1 hmem with hmem | hmem
      · exact hsound stage hmem
      · rwa [List.mem_singleton.1 hmem]
  | move hbefore hmoves =>
      rcases List.mem_or_eq_of_mem_set hmem with hmem | rfl
      · exact hsound stage hmem
      · exact hmoves.isSound (hsound _ (List.mem_of_getElem? hbefore))
  | install hsweep cut =>
      rcases List.mem_or_eq_of_mem_set hmem with hmem | rfl
      · exact hsound stage hmem
      · trivial

theorem isSound_run (h : traffic.IsSound) (events : List IndexEvent) : (traffic.run events).IsSound := by
  induction events generalizing traffic with
  | nil => exact h
  | cons event events ih => exact ih ((steps_step traffic event).isSound h)

/-! ## How long the index stays dirty -/

/-- What holds since the index was marked dirty when so many scans had begun: the scans of that time are
outdated, and the index is dirty unless a later one went through all of its files. -/
structure IsMarkedSince (begun : Nat) (traffic : Traffic) : Prop where
  begun_le : begun ≤ traffic.scans.length
  outdated : ∀ number < begun, ∀ stage, traffic.scans[number]? = some stage →
    ∀ marks, stage.marks? = some marks → marks < traffic.index.dirtyMarks
  dirty_or_scanned : traffic.index.state = .dirty ∨
    ∃ number, begun ≤ number ∧ traffic.scans[number]? = some (.ended true)

theorem Steps.length_le (h : traffic.Steps next) : traffic.scans.length ≤ next.scans.length := by
  cases h with
  | change | skip => exact le_refl _
  | begin => simp
  | move | install => exact List.length_set.ge

/-- A scan that is put into the index leaves it dirty if the index has more marks than it began with. -/
theorem state_install {index : Index} {scan : Scan} (cut : Bool) (h : scan.marks < index.dirtyMarks) :
    (index.install scan cut).state = .dirty := by
  show (if cut || index.dirtyMarks ≠ scan.marks then IndexState.dirty else .populated) = .dirty
  rw [if_pos]
  simp [h.ne']

theorem Steps.isMarkedSince (h : traffic.Steps next) {begun : Nat}
    (hmarked : traffic.IsMarkedSince begun) : next.IsMarkedSince begun where
  begun_le := hmarked.begun_le.trans h.length_le
  outdated := by
    -- a scan of that time keeps the marks that it began with
    intro number hlt stage hstage marks hmarks
    obtain ⟨old, hold⟩ : ∃ old, traffic.scans[number]? = some old :=
      ⟨_, List.getElem?_eq_getElem (hlt.trans_le hmarked.begun_le)⟩
    obtain ⟨later, hlater, hto⟩ := h.leadsTo hold
    obtain rfl : later = stage := Option.some.inj (hlater.symm.trans hstage)
    exact (hmarked.outdated number hlt old hold marks (hto.marks?_eq_some hmarks)).trans_le h.dirtyMarks_le
  dirty_or_scanned := by
    rcases hmarked.dirty_or_scanned with hdirty | ⟨number, hle, hended⟩
    · cases h with
      | change change => exact Or.inl ((traffic.index.react_keeps change).2 hdirty)
      | skip | begin | move => exact Or.inl hdirty
      | @install number sweep hsweep cut =>
          have hlt := (List.getElem?_eq_some_iff.1 hsweep).1
          -- an outdated scan leaves the index dirty, whether it was cut short or not
          by_cases hold : number < begun
          · exact Or.inl (state_install cut (hmarked.outdated number hold _ hsweep _ rfl))
          · cases cut with
            | true => exact Or.inl rfl
            | false => exact Or.inr ⟨number, Nat.le_of_not_lt hold, List.getElem?_set_self hlt⟩
    · obtain ⟨later, hlater, hto⟩ := h.leadsTo hended
      obtain rfl : later = .ended true := hto
      exact Or.inr ⟨number, hle, hlater⟩

theorem isMarkedSince_run {begun : Nat} (h : traffic.IsMarkedSince begun) (events : List IndexEvent) :
    (traffic.run events).IsMarkedSince begun := by
  induction events generalizing traffic with
  | nil => exact h
  | cons event events ih => exact ih ((steps_step traffic event).isMarkedSince h)

theorem isMarkedSince_of_isMarkedBy (hbounded : traffic.IsBounded) {change : IndexChange}
    (hmark : traffic.index.IsMarkedBy change) :
    (traffic.step (.change change)).IsMarkedSince traffic.scans.length := by
  obtain ⟨hdirty, hmarks⟩ := Index.react_of_isMarkedBy hmark
  refine ⟨le_refl _, fun number _ stage hstage marks hbegun => ?_, Or.inl hdirty⟩
  show marks < (traffic.index.react change).dirtyMarks
  rw [hmarks]
  exact Nat.lt_succ_of_le (hbounded stage (List.mem_of_getElem? hstage) marks hbegun)

/-- After the index was marked dirty it stays dirty, whatever happens, until a scan that began since has
gone through all of its files. -/
theorem dirty_or_ended {index : Index} {before : List IndexEvent} {change : IndexChange}
    (hmark : (run ⟨index, []⟩ before).index.IsMarkedBy change) (after : List IndexEvent) :
    (run ⟨index, []⟩ (before ++ .change change :: after)).index.state = .dirty ∨
      ∃ number, (run ⟨index, []⟩ before).scans.length ≤ number ∧
        (run ⟨index, []⟩ (before ++ .change change :: after)).scans[number]? = some (.ended true) := by
  have hbounded : (run ⟨index, []⟩ before).IsBounded :=
    isBounded_run (fun _ hmem => absurd hmem List.not_mem_nil) before
  rw [run_append]
  exact (isMarkedSince_run (isMarkedSince_of_isMarkedBy hbounded hmark) after).dirty_or_scanned

def watchedIndex : Index :=
  { bareIndex with scanRoot := some ⟨['/'], ["ws".toList]⟩, patterns := ["*.yaml".toList] }

def scansUnderWay : List IndexEvent :=
  [.beginRefresh, .beginRebuild ["/ws/a.yaml".toList]]

def fileTurnsUp : IndexChange :=
  .noteEvent ⟨['/'], []⟩ ⟨['/'], ["ws".toList, "b.yaml".toList]⟩ 0 true

/-- Both scans end, the younger one first, while a document is entered and a further scan is cancelled. -/
def scansEnd : List IndexEvent :=
  [.goOn 1 false (.ok (declaring "N".toList)), .list 0 ["/ws/a.yaml".toList], .goOn 1 false (.ok []),
    .goOn 1 false (.ok []), .change (.upsert "/ws/b.yaml".toList (declaring "M".toList)),
    .beginRebuild ["/ws/a.yaml".toList], .goOn 2 true (.ok []), .goOn 0 false (.ok []),
    .goOn 0 false (.ok []), .goOn 0 false (.ok [])]

theorem dirty_or_ended_scansEnd :
    (run ⟨watchedIndex, []⟩ (scansUnderWay ++ .change fileTurnsUp :: scansEnd)).index.state = .dirty ∨
      ∃ number, 2 ≤ number ∧
        (run ⟨watchedIndex, []⟩ (scansUnderWay ++ .change fileTurnsUp :: scansEnd)).scans[number]? =
          some (.ended true) :=
  have hmark : (run ⟨watchedIndex, []⟩ scansUnderWay).index.tracks ⟨['/'], []⟩
      ⟨['/'], ["ws".toList, "b.yaml".toList]⟩ = true := by decide +kernel
  @dirty_or_ended watchedIndex scansUnderWay fileTurnsUp hmark scansEnd

/-! ## What becomes of a document that was entered during a scan -/

/-- The end of a scan puts the records of the files that it has read into the index, and the index is clean
afterwards if the scan went through all of its files and the index was not marked since it began. -/
theorem install_of_ends {sweep : Sweep} {cancelled : Bool}
    (hstage : traffic.scans[number]? = some (.sweeping sweep)) (hsound : traffic.IsSound)
    (hends : sweep.scan.remaining = [] ∨ sweep.inHand = none ∧ cancelled = true)
    (next : Except StoreError Text) :
    sweep.read = sweep.taken ∧
      (traffic.step (.goOn number cancelled next)).index.records =
        recordsOf traffic.index.sourceOf sweep.read ∧
      (traffic.step (.goOn number cancelled next)).index.sourceOf = traffic.index.sourceOf ∧
      ((traffic.step (.goOn number cancelled next)).index.state = .dirty ↔
        sweep.scan.remaining ≠ [] ∨ traffic.index.dirtyMarks ≠ sweep.scan.marks) := by
  have hfound : sweep.scan.found = recordsOf traffic.index.sourceOf sweep.taken :=
    hsound _ (List.mem_of_getElem? hstage)
  -- a scan that is cut off leaves the index dirty, even if nothing was marked
  have hinstalled : ∀ cut, (traffic.index.install sweep.scan cut).state = .dirty ↔
      cut = true ∨ traffic.index.dirtyMarks ≠ sweep.scan.marks := by
    intro cut
    show (if cut || traffic.index.dirtyMarks ≠ sweep.scan.marks then IndexState.dirty else .populated) =
      .dirty ↔ _
    split <;> simp_all
  simp only [step, hstage]
  cases hremaining : sweep.scan.remaining with
  | nil =>
      rw [Sweep.goOn_of_remaining_nil hremaining, Sweep.read_of_remaining_nil hremaining]
      refine ⟨rfl, hfound, rfl, ?_⟩
      rw [hinstalled]
      simp
  | cons uri rest =>
      obtain ⟨hhand, rfl⟩ := hends.resolve_left (by simp [hremaining])
      rw [Sweep.goOn_cancelled hremaining hhand, Sweep.read_of_inHand_none hhand]
      refine ⟨rfl, hfound, rfl, ?_⟩
      rw [hinstalled]
      simp

/-- A document is entered while a scan is under way that has read the document before. When the scan ends
the document's record is the one entered, or the index is dirty, if and only if the scan was cut short, or
the index was marked dirty since it began, or the scan read a text with the same record and no file that it
read later declares the same name. -/
theorem recordOf?_or_dirty_iff {index : Index} {before after : List IndexEvent} {first last : Sweep}
    {uri text : Text} {fetched next : Except StoreError Text} {record : Record} {cancelled : Bool}
    {ended : Traffic}
    (hfirst : (run ⟨index, []⟩ before).scans[number]? = some (.sweeping first))
    (hread : (uri, fetched) ∈ first.read)
    (hrecord : Record.ofText? (index.sourceOf uri) text = some record)
    (hlast : (run ⟨index, []⟩ (before ++ .change (.upsert uri text) :: after)).scans[number]? =
      some (.sweeping last))
    (hends : last.scan.remaining = [] ∨ last.inHand = none ∧ cancelled = true)
    (hended : (run ⟨index, []⟩ (before ++ .change (.upsert uri text) :: after)).step
      (.goOn number cancelled next) = ended)
    (hfiles : last.files.Nodup) (hnormal : ∀ file ∈ last.files, IsNormal file) :
    (ended.index.recordOf? uri = some record ∨ ended.index.state = .dirty) ↔
      last.scan.remaining ≠ [] ∨
      (run ⟨index, []⟩ (before ++ .change (.upsert uri text) :: after)).index.dirtyMarks ≠
        last.scan.marks ∨
      (recordOfFile? index.sourceOf (uri, fetched) = Record.ofText? (index.sourceOf uri) text ∧
        ∃ earlier later, last.read = earlier ++ (uri, fetched) :: later ∧
          ∀ other ∈ later, ∀ found, recordOfFile? index.sourceOf other = some found →
            found.name ≠ record.name) := by
  -- the scan still has what it had read when the document was entered
  obtain ⟨stage, hstage, hto⟩ := leadsTo_run (.change (.upsert uri text) :: after) hfirst
  rw [← run_append, hlast] at hstage
  obtain rfl := Option.some.inj hstage
  have hmem : (uri, fetched) ∈ last.read := hto.2.subset hread
  have hsound : (run ⟨index, []⟩ (before ++ .change (.upsert uri text) :: after)).IsSound :=
    isSound_run (fun _ hmem => absurd hmem List.not_mem_nil) _
  -- its end puts in the records of its own reads, whatever else the index was told
  obtain ⟨htaken, hrecords, hsource, hstate⟩ := install_of_ends hlast hsound hends next
  rw [hended] at hrecords hsource hstate
  rw [← hsource] at hrecords
  replace hsource : ended.index.sourceOf = index.sourceOf := hsource.trans (sourceOf_run ⟨index, []⟩ _)
  have hkeys : last.read.keys.Nodup := by
    rw [htaken]
    exact (List.nodup_append.1 hfiles).1
  have huris : ∀ file ∈ last.read.keys, IsNormal file := by
    rw [htaken]
    exact fun file hfile => hnormal file (List.mem_append_left _ hfile)
  have huri : record.uri = uri :=
    Index.uri_ofText?_sourceOf (huris uri (List.mem_map_of_mem hmem)) hrecord
  have hfound := Chronicle.recordOf?_eq_some_iff_of_read hrecords hkeys huris hmem huri
  rw [hsource] at hfound
  rw [hfound, hstate, hrecord, or_comm, or_assoc]

def firstRead : List IndexEvent :=
  [.beginRebuild ["/a".toList, "/b".toList], .goOn 0 false (.ok (declaring "N".toList)),
    .goOn 0 false (.ok [])]

def secondRead : List IndexEvent := [.goOn 0 false (.ok (declaring "L".toList)), .goOn 0 false (.ok [])]

def sweepAfterFirst : Sweep where
  scan := {
    remaining := ["/b".toList], count := 1, marks := 0
    found := [("N".toList, soleRecord "/a".toList "N".toList)] }
  taken := [("/a".toList, .ok (declaring "N".toList))]

def sweepAfterSecond : Sweep where
  scan := {
    remaining := [], count := 2, marks := 0
    found := [("N".toList, soleRecord "/a".toList "N".toList),
      ("L".toList, soleRecord "/b".toList "L".toList)] }
  taken := [("/a".toList, .ok (declaring "N".toList)), ("/b".toList, .ok (declaring "L".toList))]

/-- The index after the rebuild, when the first document was entered with this text in between. -/
def overtaken (text : Text) : Traffic :=
  (run ⟨bareIndex, []⟩ (firstRead ++ .change (.upsert "/a".toList text) :: secondRead)).step
    (.goOn 0 false (.ok []))

theorem recordOf?_or_dirty_overtaken :
    ((overtaken (declaring "M".toList)).index.recordOf? "/a".toList =
          some (soleRecord "/a".toList "M".toList) ∨
        (overtaken (declaring "M".toList)).index.state = .dirty) ↔
      sweepAfterSecond.scan.remaining ≠ [] ∨
      (run ⟨bareIndex, []⟩ (firstRead ++
        .change (.upsert "/a".toList (declaring "M".toList)) :: secondRead)).index.dirtyMarks ≠
          sweepAfterSecond.scan.marks ∨
      (recordOfFile? bareIndex.sourceOf ("/a".toList, .ok (declaring "N".toList)) =
          Record.ofText? (bareIndex.sourceOf "/a".toList) (declaring "M".toList) ∧
        ∃ earlier later, sweepAfterSecond.read =
            earlier ++ ("/a".toList, .ok (declaring "N".toList)) :: later ∧
          ∀ other ∈ later, ∀ found, recordOfFile? bareIndex.sourceOf other = some found →
            found.name ≠ "M".toList) :=
  @recordOf?_or_dirty_iff 0 bareIndex firstRead secondRead sweepAfterFirst sweepAfterSecond "/a".toList
    (declaring "M".toList) (.ok (declaring "N".toList)) (.ok []) (soleRecord "/a".toList "M".toList)
    false (overtaken (declaring "M".toList)) (by decide +kernel) (by decide +kernel) (by decide +kernel)
    (by decide +kernel) (Or.inl rfl) rfl
    (by decide +kernel) (by decide +kernel)

/-- After the rebuild the index has the record of the text that was read, not of the one that was entered
since, and counts as clean. -/
theorem recordOf?_overtaken_lost :
    ("/a".toList, .ok (declaring "N".toList)) ∈ sweepAfterFirst.read ∧
      (run ⟨bareIndex, []⟩ firstRead).scans[0]? = some (.sweeping sweepAfterFirst) ∧
      Record.ofText? (bareIndex.sourceOf "/a".toList) (declaring "M".toList) =
        some (soleRecord "/a".toList "M".toList) ∧
      (overtaken (declaring "M".toList)).scans[0]? = some (.ended true) ∧
      (overtaken (declaring "M".toList)).index.recordOf? "/a".toList =
        some (soleRecord "/a".toList "N".toList) ∧
      (overtaken (declaring "M".toList)).index.state = .populated := by
  decide +kernel

end Traffic

end Scenarist

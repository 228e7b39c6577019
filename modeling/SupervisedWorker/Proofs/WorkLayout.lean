import Mathlib.Logic.Relation
import SupervisedWorker.Proofs.Files.Directory
import SupervisedWorker.Proofs.StopWatch
import SupervisedWorker.Proofs.Text.Joined
import SupervisedWorker.Run.Scene

/-!
# Whose stop marker it is

A stop marker is named after a service id and a worker id with a hyphen between them. Since a
hyphen may also be in an id, two workers can have one marker: what stands behind a hyphen in the
worker id of the one stands at the end of the service id of the other. A worker obeys the markers of
those it shares its own with, and of nobody else.

Results:
1. `stopPath_eq_iff`, `stopPath_same_iff`: which workers share a marker.
2. `poll_written`: what a look makes of a marker that was written for another worker.
3. `wait_elsewhere`: what a whole watch makes of markers that are not its own.
4. `marker_shared_iff`: all of that together.
-/

namespace SupervisedWorker

open FileStore FileTree

/-! ## 1. Names of markers -/

/-- The names on a path, without the parts that stay in the same directory. -/
def pathNames (path : String) : List String :=
  ((Text.pieces (· == '/') path.toList).map String.ofList).filter fun name =>
    name ≠ "" ∧ name ≠ "."

/-- What a path starts with before its first name. -/
def pathFront (path : String) : List String :=
  match path.toList with
  | '/' :: _ => ["/"]
  | ['.'] => ["."]
  | '.' :: '/' :: _ => ["."]
  | _ => []

/-- Whether two paths have the same components. Several slashes in a row count as one, and a part
that stays in the same directory counts only at the front of a path. -/
def SamePath (path path' : String) : Prop :=
  pathFront path = pathFront path' ∧ pathNames path = pathNames path'

theorem pathNames_joinPath {base path : String} (hbase : base ≠ "")
    (hpath : path.toList.head? ≠ some '/') :
    pathNames (joinPath base path) = pathNames base ++ pathNames path := by
  have hempty : [""].filter (fun name : String => name ≠ "" ∧ name ≠ ".") = [] := by decide
  rw [joinPath, if_neg hpath]
  by_cases hslash : base.toList.getLast? = some '/'
  · obtain ⟨front, hfront⟩ := List.getLast?_eq_some_iff.mp hslash
    have hnil : Text.pieces (· == '/') [] = [[]] := rfl
    rw [if_pos (by simp [hslash]), pathNames, pathNames, pathNames, String.toList_append, hfront,
      pieces_slash, List.append_assoc, List.singleton_append, pieces_slash, hnil]
    simp only [List.map_append, List.filter_append, List.map_cons, List.map_nil, String.ofList_nil,
      hempty, List.append_nil]
  · have hjoin : (base ++ "/" ++ path).toList = base.toList ++ '/' :: path.toList := by simp
    rw [if_neg (by simp [hbase, hslash]), pathNames, hjoin, pieces_slash, List.map_append,
      List.filter_append]
    rfl

theorem pathFront_append {base : String} (more : String) (hbase : 3 ≤ base.toList.length) :
    pathFront (base ++ more) = pathFront base := by
  obtain ⟨a, b, c, rest, hbase⟩ : ∃ a b c rest, base.toList = a :: b :: c :: rest := by
    match hlist : base.toList with
    | a :: b :: c :: rest => exact ⟨a, b, c, rest, rfl⟩
    | [] | [_] | [_, _] => simp [hlist] at hbase
  rw [pathFront, pathFront, String.toList_append, hbase]
  simp only [List.cons_append]
  split <;> simp_all

namespace WorkLayout

variable {i j : AgentIdentity}

/-- Two workers whose ids are the same text around a hyphen, but not the same ids: a piece of the
worker id of the first belongs to the service id of the second. -/
def Overlaps (i j : AgentIdentity) : Prop :=
  Text.Shifted "-" i.serviceId i.agentId j.serviceId j.agentId

theorem joinPath_inj {base path path' : String} (hpath : path.toList.head? ≠ some '/')
    (hpath' : path'.toList.head? ≠ some '/') :
    joinPath base path = joinPath base path' ↔ path = path' := by
  rw [joinPath, joinPath, if_neg hpath, if_neg hpath']
  split <;> simp

theorem stopName_eq (i : AgentIdentity) :
    stopName i = "gsa-" ++ (i.serviceId ++ "-" ++ i.agentId) ++ "-stop" := by
  simp only [stopName, String.append_assoc]
  rfl

theorem stopPath_inj (l : WorkLayout) :
    l.stopPath i = l.stopPath j ↔ stopName i = stopName j := by
  have hhead : ∀ i, (stopName i).toList.head? ≠ some '/' := by
    simp [stopName_eq]
  rw [stopPath, stopPath, joinPath_inj (hhead i) (hhead j)]

theorem stopPath_eq_iff (l : WorkLayout) (i j : AgentIdentity) :
    l.stopPath i = l.stopPath j ↔ i = j ∨ Overlaps i j ∨ Overlaps j i := by
  have hsame : i = j ↔ i.serviceId = j.serviceId ∧ i.agentId = j.agentId := by
    cases i
    cases j
    simp [and_comm]
  rw [stopPath_inj, stopName_eq, stopName_eq, String.append_left_inj, String.append_right_inj,
    Text.joined_eq_iff (c := '-') rfl, hsame]
  rfl

theorem stopPath_same_iff (l : WorkLayout) (i j : AgentIdentity) :
    SamePath (l.stopPath i) (l.stopPath j) ↔ pathNames (stopName i) = pathNames (stopName j) := by
  have hlong : 3 ≤ l.commandsDir.toList.length := by
    have hgsa : "gsa".toList.head? ≠ some '/' := by decide
    rw [commandsDir, joinPath, if_neg hgsa]
    split <;> simp
  have hempty : l.commandsDir ≠ "" := fun h => by simp [h] at hlong
  have hhead : ∀ i, (stopName i).toList.head? ≠ some '/' := by
    simp [stopName_eq]
  have hfront : ∀ i, pathFront (l.stopPath i) = pathFront l.commandsDir := by
    intro i
    rw [stopPath, joinPath, if_neg (hhead i)]
    split
    · exact pathFront_append _ hlong
    · rw [String.append_assoc, pathFront_append _ hlong]
  rw [SamePath, hfront, hfront, stopPath, stopPath, pathNames_joinPath hempty (hhead i),
    pathNames_joinPath hempty (hhead j), List.append_cancel_left_eq]
  exact and_iff_right rfl

theorem pathNames_stopName (hi : '/' ∉ i.serviceId.toList) (hi' : '/' ∉ i.agentId.toList) :
    pathNames (stopName i) = [stopName i] := by
  have hsingle : IsSinglePart (stopName i) := by
    refine ⟨?_, ?_⟩ <;> simp [stopName_eq, ← String.toList_inj, hi, hi']
  have hdots : stopName i ≠ "." := by simp [stopName_eq, ← String.toList_inj]
  rw [pathNames, pieces_single hsingle, List.map_singleton, String.ofList_toList]
  simp [hsingle.1, hdots]

/-- Without slashes in the ids the paths of two markers have the same components only if they are
the same text. -/
theorem stopPath_same_iff_eq (l : WorkLayout)
    (hi : '/' ∉ i.serviceId.toList ∧ '/' ∉ i.agentId.toList)
    (hj : '/' ∉ j.serviceId.toList ∧ '/' ∉ j.agentId.toList) :
    SamePath (l.stopPath i) (l.stopPath j) ↔ l.stopPath i = l.stopPath j := by
  rw [stopPath_same_iff, pathNames_stopName hi.1 hi.2, pathNames_stopName hj.1 hj.2,
    List.singleton_inj, stopPath_inj]

end WorkLayout

/-! ## 2. A look after a marker has been written -/

namespace StopWatch

variable {l : WorkLayout} {i j : AgentIdentity} {w : StopWatch} {around : Surroundings FileStore}
  {s : FileStore} {d : List FileName} {es : Entries}

/-- A marker whose path is usable, in a directory where it is not there. -/
structure Absent (l : WorkLayout) (i : AgentIdentity) (es : Entries) : Prop where
  single : IsSinglePart (WorkLayout.stopName i)
  usable : IsUsable (l.stopPath i) ∧ IsName (Text.utf8 (WorkLayout.stopName i))
  vacant : es.lookup (Text.utf8 (WorkLayout.stopName i)) = none

theorem poll_absent (hfiles : around.files = FileStore.system) (hw : w.marker = l.stopPath i)
    (hs : s.Holds l.commandsDir d es) (hi : Absent l i es) : w.poll around s = (false, s) := by
  have hprobe : s.probe w.marker = .error .missing := by
    rw [hw, WorkLayout.stopPath, hs.probe hi.single hi.usable (by simp [hi.vacant]), hi.vacant]
    rfl
  rw [poll_eq, hfiles]
  simp [FileStore.system, hprobe]

theorem poll_present (hfiles : around.files = FileStore.system) (hw : w.marker = l.stopPath i)
    (hs : s.Holds l.commandsDir d es) (hi : IsSinglePart (WorkLayout.stopName i))
    (husable : IsUsable (l.stopPath i) ∧ IsName (Text.utf8 (WorkLayout.stopName i))) {id : Nat}
    {modified : Int} {content : String}
    (he : es.lookup (Text.utf8 (WorkLayout.stopName i)) = some (.file id modified content)) :
    w.poll around s = (true, s.without d [Text.utf8 (WorkLayout.stopName i)]) := by
  have hprobe : s.probe w.marker = .ok () := by
    rw [hw, WorkLayout.stopPath, hs.probe hi husable (by simp [he]), he]
    rfl
  have hremove : s.remove w.marker =
      (.ok (), s.without d [Text.utf8 (WorkLayout.stopName i)]) := by
    rw [hw, WorkLayout.stopPath, hs.remove hi husable he]
  obtain ⟨left, hleft⟩ := Nat.exists_eq_succ_of_ne_zero (Nat.ne_of_gt w.attempts_pos)
  rw [poll_eq, hfiles, hleft]
  simp [FileStore.system, hprobe, consume, removeOnce, hfiles, hremove]

/-- A worker finds a marker that was written for another one, and removes it, if and only if the
markers of the two are the same. -/
theorem poll_written (hfiles : around.files = FileStore.system) (hw : w.marker = l.stopPath i)
    (hs : s.Holds l.commandsDir d es) (hi : Absent l i es) (hj : Absent l j es) (content : String)
    (modified : Int) :
    let looked := w.poll around (s.write (l.stopPath j) content modified).2
    (looked.1 = true ↔ l.stopPath i = l.stopPath j) ∧
      (looked.2.isThere (l.stopPath j) = false ↔ l.stopPath i = l.stopPath j) := by
  intro looked
  obtain ⟨id, hs'⟩ := hs.write hj.single hj.usable (by simp [hj.vacant]) content modified
  have hlookup := fun n => lookup_putEntry (Text.utf8 (WorkLayout.stopName j)) n
    (.file id modified content) es
  rw [l.stopPath_inj]
  by_cases hsame : WorkLayout.stopName i = WorkLayout.stopName j
  · have hfile := hlookup (Text.utf8 (WorkLayout.stopName j))
    rw [if_pos rfl] at hfile
    have hlooked : looked = _ :=
      poll_present hfiles (hw.trans (l.stopPath_inj.mpr hsame)) hs' hj.single hj.usable hfile
    have hgone := hs'.without fun n hn e he => by
      rw [List.mem_singleton.mp hn, hfile] at he
      cases he
      trivial
    have hthere := hgone.isThere hj.single hj.usable
    rw [lookup_without, if_pos (List.mem_singleton_self _), Option.isSome_none] at hthere
    rw [hlooked, WorkLayout.stopPath, hthere]
    exact ⟨iff_of_true rfl hsame, iff_of_true rfl hsame⟩
  · have hne : Text.utf8 (WorkLayout.stopName i) ≠ Text.utf8 (WorkLayout.stopName j) :=
      fun he => hsame (Text.utf8_injective he)
    have hlooked : looked = _ := poll_absent hfiles hw hs'
      ⟨hi.single, hi.usable, by rw [hlookup, if_neg hne, hi.vacant]⟩
    have hthere := hs'.isThere hj.single hj.usable
    rw [hlookup, if_pos rfl] at hthere
    rw [hlooked]
    refine ⟨iff_of_false Bool.false_ne_true hsame, iff_of_false (fun h => ?_) hsame⟩
    rw [WorkLayout.stopPath, hthere] at h
    cases h

/-! ## 3. A whole watch among other workers -/

/-- The marker of a worker is not there, and nothing leads from its directory elsewhere. -/
def Unmarked (l : WorkLayout) (i : AgentIdentity) (s : FileStore) : Prop :=
  ∃ d es, s.Holds l.commandsDir d es ∧ Absent l i es ∧ ∀ n target, es.lookup n ≠ some (.link target)

/-- What others do to the files that is no business of a worker. -/
inductive Elsewhere (l : WorkLayout) (i : AgentIdentity) : FileStore → FileStore → Prop
  /-- A worker is told to stop whose marker is another one. -/
  | told {j : AgentIdentity} (s : FileStore) (content : String) (modified : Int) :
      IsSinglePart (WorkLayout.stopName j) → l.stopPath i ≠ l.stopPath j →
      Elsewhere l i s (s.write (l.stopPath j) content modified).2
  /-- Time passes. -/
  | passed (s : FileStore) (now : Int) : Elsewhere l i s { s with now }

theorem stopName_dots (j : AgentIdentity) :
    WorkLayout.stopName j ≠ "." ∧ WorkLayout.stopName j ≠ ".." := by
  simp [WorkLayout.stopName_eq, ← String.toList_inj]

theorem Unmarked.write (h : Unmarked l i s) (hsingle : IsSinglePart (WorkLayout.stopName j))
    (hpaths : l.stopPath i ≠ l.stopPath j) (content : String) (modified : Int) :
    Unmarked l i (s.write (l.stopPath j) content modified).2 := by
  obtain ⟨d, es, hs, hi, hlinks⟩ := h
  rcases hfollow : s.follow (l.stopPath j) with e | t
  · rw [FileStore.write, hfollow]
    exact ⟨d, es, hs, hi, hlinks⟩
  · have husable := hs.usable hsingle (stopName_dots j) hfollow
    by_cases hdir : ∃ inner, es.lookup (Text.utf8 (WorkLayout.stopName j)) = some (.directory inner)
    · obtain ⟨inner, hdir⟩ := hdir
      have hresolve : s.follow (l.stopPath j) = _ :=
        hs.resolve hsingle husable.1 husable.2 (.inr (hlinks _))
      rw [FileStore.write, hresolve, target, hdir]
      exact ⟨d, es, hs, hi, hlinks⟩
    · have hfile : ∀ e, es.lookup (Text.utf8 (WorkLayout.stopName j)) = some e → e.IsFile := by
        rintro (_ | target | inner) he
        · trivial
        · exact hlinks _ target he
        · exact hdir ⟨inner, he⟩
      obtain ⟨id, hs'⟩ := hs.write hsingle husable hfile content modified
      have hne : Text.utf8 (WorkLayout.stopName i) ≠ Text.utf8 (WorkLayout.stopName j) :=
        fun he => hpaths (l.stopPath_inj.mpr (Text.utf8_injective he))
      refine ⟨d, _, hs', ⟨hi.single, hi.usable, ?_⟩, fun n target => ?_⟩
      · rw [lookup_putEntry, if_neg hne, hi.vacant]
      · rw [lookup_putEntry]
        split
        · simp
        · exact hlinks n target

theorem Unmarked.step {s' : FileStore} (h : Unmarked l i s) (hstep : Elsewhere l i s s') :
    Unmarked l i s' := by
  cases hstep with
  | told _ content modified hsingle hpaths => exact h.write hsingle hpaths content modified
  | passed => exact h

theorem Unmarked.steps {s' : FileStore} (h : Unmarked l i s)
    (hsteps : Relation.ReflTransGen (Elsewhere l i) s s') : Unmarked l i s' := by
  induction hsteps with
  | refl => exact h
  | tail _ hstep ih => exact ih.step hstep

theorem round_elsewhere (hfiles : around.files = FileStore.system) (hw : w.marker = l.stopPath i)
    (hs : Unmarked l i s)
    (hdoze : Relation.ReflTransGen (Elsewhere l i) s (around.doze w.pollInterval s).2) :
    (w.round around s).1 ≠ some .stopCommand ∧
      Relation.ReflTransGen (Elsewhere l i) s (w.round around s).2 := by
  obtain ⟨d, es, hholds, hi, -⟩ := hs
  rw [round, poll_absent hfiles hw hholds hi]
  split
  · exact ⟨by simp, .refl⟩
  · dsimp only
    split <;> rename_i hdozed <;> rw [hdozed] at hdoze <;> exact ⟨by simp, hdoze⟩

/-- While others are told to stop in its sleeps, a watch does not find a command, and leaves all
files as the others do. -/
theorem wait_elsewhere (hfiles : around.files = FileStore.system) (hw : w.marker = l.stopPath i)
    (hs : Unmarked l i s)
    (hdoze : ∀ t s, Relation.ReflTransGen (Elsewhere l i) s (around.doze t s).2) (rounds : Nat) :
    (w.wait around rounds s).1 ≠ some .stopCommand ∧
      Relation.ReflTransGen (Elsewhere l i) s (w.wait around rounds s).2 := by
  induction rounds generalizing s with
  | zero => exact ⟨by simp [wait], .refl⟩
  | succ rounds ih =>
    obtain ⟨hnever, hround⟩ := round_elsewhere hfiles hw hs (hdoze _ s)
    rw [wait]
    rcases hended : w.round around s with ⟨_ | trigger, s'⟩ <;> rw [hended] at hnever hround
    · obtain ⟨hnever', hrest⟩ := ih (hs.steps hround)
      exact ⟨hnever', hround.trans hrest⟩
    · exact ⟨hnever, hround⟩

/-! ## 4. Whose marker it is -/

theorem marker_eq {σ : Type} {p : Run.Plan σ} (hrole : p.role = .supervised i)
    (hw : p.watch = some w) : w.marker = p.layout.stopPath i := by
  rw [Run.Plan.watch, hrole] at hw
  cases hw
  rfl

/-- Two workers under one work directory share a stop marker if and only if their ids are the same,
or the same text around a hyphen, which cannot be where the worker ids are free of hyphens. Their
paths have the same components if and only if the names of the markers lead over the same names, and
without slashes in the ids only then if the paths are the same text. A worker finds the marker that
was written for another one, and removes it, exactly if they share it; otherwise it goes on and the
marker stays. Its whole watch finds no command, and removes nothing, as long as only workers are told
to stop that do not share its marker. -/
theorem marker_shared_iff (l : WorkLayout) (i j : AgentIdentity) :
    (l.stopPath i = l.stopPath j ↔
      i = j ∨ WorkLayout.Overlaps i j ∨ WorkLayout.Overlaps j i) ∧
    ('-' ∉ i.agentId.toList → '-' ∉ j.agentId.toList → (l.stopPath i = l.stopPath j ↔ i = j)) ∧
    (SamePath (l.stopPath i) (l.stopPath j) ↔
      pathNames (WorkLayout.stopName i) = pathNames (WorkLayout.stopName j)) ∧
    ('/' ∉ i.serviceId.toList ∧ '/' ∉ i.agentId.toList →
      '/' ∉ j.serviceId.toList ∧ '/' ∉ j.agentId.toList →
      (SamePath (l.stopPath i) (l.stopPath j) ↔ l.stopPath i = l.stopPath j)) ∧
    ∀ {σ : Type} (p : Run.Plan σ) (w : StopWatch) (around : Surroundings FileStore) (s : FileStore),
      p.layout = l → p.role = .supervised i → p.watch = some w → around.files = FileStore.system →
      (∀ (d : List FileName) (es : Entries) (content : String) (modified : Int),
        s.Holds l.commandsDir d es → Absent l i es → Absent l j es →
        let looked := w.poll around (s.write (l.stopPath j) content modified).2
        (looked.1 = true ↔ l.stopPath i = l.stopPath j) ∧
          (looked.2.isThere (l.stopPath j) = false ↔ l.stopPath i = l.stopPath j)) ∧
      (Unmarked l i s →
        (∀ t s, Relation.ReflTransGen (Elsewhere l i) s (around.doze t s).2) → ∀ rounds,
        (w.wait around rounds s).1 ≠ some .stopCommand ∧
          Relation.ReflTransGen (Elsewhere l i) s (w.wait around rounds s).2) := by
  refine ⟨l.stopPath_eq_iff i j, fun hi hj => ?_, l.stopPath_same_iff i j,
    l.stopPath_same_iff_eq, ?_⟩
  · have hij : ¬WorkLayout.Overlaps i j := Text.not_shifted (c := '-') rfl hi
    have hji : ¬WorkLayout.Overlaps j i := Text.not_shifted (c := '-') rfl hj
    rw [l.stopPath_eq_iff, or_iff_left (not_or.mpr ⟨hij, hji⟩)]
  intro σ p w around s hlayout hrole hwatch hfiles
  have hw : w.marker = l.stopPath i := hlayout ▸ marker_eq hrole hwatch
  refine ⟨fun d es content modified hs hi hj => ?_, fun hs hdoze rounds => ?_⟩
  · exact poll_written hfiles hw hs hi hj content modified
  · exact wait_elsewhere hfiles hw hs hdoze rounds

/-- The layout by the default settings. -/
def usual : WorkLayout := ⟨"./work", "gsa"⟩

/-- The run of a worker with the default settings. -/
def runOf (i : AgentIdentity) : Run.Plan Run.Scene :=
  Run.Scene.plan .default (.supervised i) .empty false

/-- A work directory without a marker. -/
def workplace : FileStore :=
  ⟨[(Text.utf8 "work", .directory [(Text.utf8 "gsa", .directory [])])], [], 0, 0, []⟩

theorem holds_workplace :
    workplace.Holds usual.commandsDir [Text.utf8 "work", Text.utf8 "gsa"] [] := by
  have hdir : usual.commandsDir = "./work/gsa" := by decide +kernel
  have hparts : parts "./work/gsa" = [here, Text.utf8 "work", Text.utf8 "gsa"] := by
    decide +kernel
  rw [hdir, Holds, FileStore.follow_top (.inl rfl) (by decide +kernel), hparts, walk_here,
    walk_directory rfl (by decide +kernel), walk_directory rfl (by decide +kernel), walk]
  rfl

theorem unmarked_workplace (hi : Absent usual i []) : Unmarked usual i workplace :=
  ⟨_, [], holds_workplace, hi, by simp⟩

/-- Surroundings of a watch in whose sleeps a worker is told to stop. -/
def telling (j : AgentIdentity) : Surroundings FileStore where
  files := FileStore.system
  write _ s := s
  sleep _ s := s
  interrupted _ := false
  doze _ s := (false, (s.write (usual.stopPath j) "" s.now).2)

/-- The second worker of a service leaves the marker of the third one alone, however often the third
one is told to stop. -/
theorem marker_shared_iff_siblings :
    Absent usual ⟨"2", "svc-a"⟩ [] ∧ Absent usual ⟨"3", "svc-a"⟩ [] ∧
    ∃ w, (runOf ⟨"2", "svc-a"⟩).watch = some w ∧
      (w.poll (telling ⟨"3", "svc-a"⟩)
        (workplace.write (usual.stopPath ⟨"3", "svc-a"⟩) "" 0).2).1 = false ∧
      ∀ rounds, (w.wait (telling ⟨"3", "svc-a"⟩) rounds workplace).1 ≠ some .stopCommand := by
  have habsent : Absent usual ⟨"2", "svc-a"⟩ [] ∧ Absent usual ⟨"3", "svc-a"⟩ [] := by
    constructor <;> refine ⟨?_, ⟨?_, ?_⟩, rfl⟩ <;> dsimp only [IsSinglePart, IsUsable, IsName] <;>
      decide +kernel
  have hpaths : usual.stopPath ⟨"2", "svc-a"⟩ ≠ usual.stopPath ⟨"3", "svc-a"⟩ := by
    decide +kernel
  obtain ⟨w, hw⟩ : ∃ w, (runOf ⟨"2", "svc-a"⟩).watch = some w := ⟨_, rfl⟩
  obtain ⟨hlooked, hwaited⟩ := (marker_shared_iff usual ⟨"2", "svc-a"⟩ ⟨"3", "svc-a"⟩).2.2.2.2
    (runOf ⟨"2", "svc-a"⟩) w (telling ⟨"3", "svc-a"⟩) workplace rfl rfl hw rfl
  have hfound := (hlooked _ [] "" 0 holds_workplace habsent.1 habsent.2).1
  have hdoze := fun (_ : Duration) s =>
    Relation.ReflTransGen.single (Elsewhere.told s "" s.now habsent.2.single hpaths)
  have hnever := fun rounds => (hwaited (unmarked_workplace habsent.1) hdoze rounds).1
  exact ⟨habsent.1, habsent.2, w, hw, Bool.eq_false_iff.mpr (hfound.not.mpr hpaths), hnever⟩

/-- A worker of one service and a worker of another one have the same marker, so that the one obeys
and removes what was written for the other. -/
theorem marker_of_two_workers :
    let i : AgentIdentity := ⟨"b-1", "svc"⟩
    let j : AgentIdentity := ⟨"1", "svc-b"⟩
    i ≠ j ∧ (∀ l : WorkLayout, l.stopPath i = l.stopPath j) ∧
      ∃ w, (runOf i).watch = some w ∧
        let looked := w.poll (telling j) (workplace.write (usual.stopPath j) "" 0).2
        looked.1 = true ∧ looked.2.isThere (usual.stopPath j) = false := by
  intro i j
  have hshared : ∀ l : WorkLayout, l.stopPath i = l.stopPath j := fun l =>
    l.stopPath_inj.mpr (by decide +kernel)
  have habsent : Absent usual i [] ∧ Absent usual j [] := by
    constructor <;> refine ⟨?_, ⟨?_, ?_⟩, rfl⟩ <;> dsimp only [IsSinglePart, IsUsable, IsName] <;>
      decide +kernel
  obtain ⟨w, hw⟩ : ∃ w, (runOf i).watch = some w := ⟨_, rfl⟩
  have hmarker : w.marker = usual.stopPath i := marker_eq (p := runOf i) rfl hw
  have hfiles : (telling j).files = FileStore.system := rfl
  have hlooked := poll_written hfiles hmarker holds_workplace habsent.1 habsent.2 "" 0
  exact ⟨by decide, hshared, w, hw, hlooked.1.mpr (hshared _), hlooked.2.mpr (hshared _)⟩

end StopWatch

end SupervisedWorker

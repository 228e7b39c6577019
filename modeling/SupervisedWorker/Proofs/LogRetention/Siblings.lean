import SupervisedWorker.Proofs.LogRetention
import SupervisedWorker.Proofs.Text.Joined
import SupervisedWorker.Role
import SupervisedWorker.Run.OldLogs

/-!
# Whose logs are removed

Workers that write their logs to one directory take each other's files for their own if the name of
the one log and what is added to it begins like the files of the other. This does not depend on the
worker ids alone, since the names of logs are put together with a character that may be in their
parts.

Results:
1. `marked_prefix_iff`: which names of files begin with the name of another log.
2. `logName_eq_iff`: which workers have logs of one name.
3. `removes_of_sibling_iff`: which files of another worker are removed.
-/

namespace SupervisedWorker

namespace LogRetention

open FileStore FileTree

/-! ## 1. Names that begin with the name of another log -/

/-- What stands behind the name of a log in the names of its files. -/
def mark : List Char := ".log.".toList

theorem mark_overlap {x u : List Char} (h : mark ++ u = x ++ mark) :
    (x = [] ∧ u = []) ∨ (x = ".log".toList ∧ u = "log.".toList) ∨
      ∃ mid, x = mark ++ mid ∧ u = mid ++ mark := by
  have hmark : mark = ['.', 'l', 'o', 'g', '.'] := rfl
  rw [hmark] at h ⊢
  rcases x with _ | ⟨c₁, _ | ⟨c₂, _ | ⟨c₃, _ | ⟨c₄, _ | ⟨c₅, mid⟩⟩⟩⟩⟩
  · exact .inl (by simpa using h)
  · simp at h
  · simp at h
  · simp at h
  · exact .inr (.inl (by simpa [eq_comm, and_assoc] using h))
  · exact .inr (.inr ⟨mid, by simpa [eq_comm, and_assoc] using h⟩)

theorem eq_of_marked {a b u : List Char} (h : a ++ mark ++ u = b ++ mark) :
    (a = b ∧ u = []) ∨ (b = a ++ ".log".toList ∧ u = "log.".toList) ∨
      ∃ mid, b = a ++ mark ++ mid ∧ u = mid ++ mark := by
  rw [List.append_assoc] at h
  rcases List.append_eq_append_iff.mp h with ⟨x, rfl, hx⟩ | ⟨x, rfl, hx⟩
  · rcases mark_overlap hx with ⟨rfl, hu⟩ | ⟨rfl, hu⟩ | ⟨mid, rfl, hu⟩
    · exact .inl ⟨(List.append_nil a).symm, hu⟩
    · exact .inr (.inl ⟨rfl, hu⟩)
    · exact .inr (.inr ⟨mid, (List.append_assoc ..).symm, hu⟩)
  · have hlen := congrArg List.length hx
    simp only [List.length_append] at hlen
    obtain rfl := List.eq_nil_of_length_eq_zero (l := x) (by omega)
    exact .inl ⟨List.append_nil b, List.eq_nil_of_length_eq_zero (by omega)⟩

/-- A name that is put together from the name of a log and a suffix without a mark begins with the
marked name of another log in these ways only. -/
theorem marked_prefix_iff {a b t : List Char} (ht : ¬mark <:+: t) :
    a ++ mark <+: b ++ mark ++ t ↔ a = b ∨ b = a ++ ".log".toList ∨ a ++ mark <+: b ∨
      (a = b ++ ".log".toList ∧ "log.".toList <+: t) := by
  constructor
  · intro h
    rcases List.prefix_or_prefix_of_prefix h (List.prefix_append _ t) with ⟨u, hu⟩ | ⟨u, hu⟩
    · rcases eq_of_marked hu with ⟨hab, -⟩ | ⟨hab, -⟩ | ⟨mid, hb, -⟩
      · exact .inl hab
      · exact .inr (.inl hab)
      · exact .inr (.inr (.inl ⟨mid, hb.symm⟩))
    · rw [← hu, List.prefix_append_right_inj] at h
      rcases eq_of_marked hu with ⟨hba, -⟩ | ⟨hab, rfl⟩ | ⟨mid, -, rfl⟩
      · exact .inl hba.symm
      · exact .inr (.inr (.inr ⟨hab, h⟩))
      · exact absurd ((List.suffix_append mid mark).isInfix.trans h.isInfix) ht
  · rintro (rfl | rfl | ⟨mid, rfl⟩ | ⟨rfl, u, rfl⟩)
    · exact List.prefix_append _ t
    · exact ⟨"log.".toList ++ t, by simp [mark]⟩
    · exact ⟨mid ++ mark ++ t, by simp⟩
    · exact ⟨u, by simp [mark]⟩

/-- How a file of the log `b` with a suffix is named like the files of the log `a`. -/
inductive Resembles (a b suffix : String) : Prop
  | same : a = b → Resembles a b suffix
  | shorter : b = a ++ ".log" → Resembles a b suffix
  | front : (a ++ ".log.").toList <+: b.toList → Resembles a b suffix
  | longer : a = b ++ ".log" → "log.".toList <+: suffix.toList → Resembles a b suffix

theorem names_iff {r : LogRetention} {b suffix : String} (hsuffix : ¬mark <:+: suffix.toList) :
    r.Names (b ++ ".log." ++ suffix) ↔ Resembles r.logName b suffix := by
  have hlists : r.Names (b ++ ".log." ++ suffix) ↔
      r.logName.toList ++ mark <+: b.toList ++ mark ++ suffix.toList := by
    rw [Names, String.toList_append, String.toList_append, String.toList_append]
    rfl
  have happend : ∀ a b : String, a = b ++ ".log" ↔ a.toList = b.toList ++ ".log".toList := by
    intro a b
    rw [← String.toList_inj, String.toList_append]
  have hfront : (r.logName ++ ".log.").toList = r.logName.toList ++ mark := String.toList_append
  rw [hlists, marked_prefix_iff hsuffix, String.toList_inj, ← happend, ← happend, ← hfront]
  constructor
  · rintro (h | h | h | ⟨h, h'⟩)
    · exact .same h
    · exact .shorter h
    · exact .front h
    · exact .longer h h'
  · rintro (h | h | h | ⟨h, h'⟩)
    · exact .inl h
    · exact .inr (.inl h)
    · exact .inr (.inr (.inl h))
    · exact .inr (.inr (.inr ⟨h, h'⟩))

/-- Logs of different names without the beginning of a mark in them have no such files. -/
theorem not_resembles {a b suffix : String} (hne : a ≠ b) (ha : ¬".log".toList <:+: a.toList)
    (hb : ¬".log".toList <:+: b.toList) : ¬Resembles a b suffix := by
  rintro (h | rfl | h | ⟨rfl, -⟩)
  · exact hne h
  · exact hb (by simpa using (List.suffix_append a.toList ".log".toList).isInfix)
  · have hmark : ".log".toList <:+: (a ++ ".log.").toList :=
      ⟨a.toList, ['.'], by simp⟩
    exact hb (hmark.trans h.isInfix)
  · exact ha (by simpa using (List.suffix_append b.toList ".log".toList).isInfix)

/-! ## 2. Workers whose logs have one name -/

/-- Two workers whose logs have one name though their ids differ: a piece of the worker id of the
first belongs to the rest of the name of the second. -/
theorem logName_eq_iff {i j : AgentIdentity} (hids : i.agentId ≠ j.agentId)
    (type type' : Option String) (services services' : List String) :
    (Role.supervised i).logName type services = (Role.supervised j).logName type' services' ↔
      Text.Shifted "_" (Role.logBase type services) i.agentId (Role.logBase type' services')
        j.agentId ∨
      Text.Shifted "_" (Role.logBase type' services') j.agentId (Role.logBase type services)
        i.agentId := by
  rw [Role.logName, Role.logName, Text.joined_eq_iff (c := '_') rfl]
  simp [hids]

/-! ## 3. Files of another worker -/

theorem lists_name {r : LogRetention} {es : Entries} {f : LogFile} {text : String}
    (hf : r.Lists es f) (hname : f.name = Text.utf8 text) : r.Names text := by
  obtain ⟨⟨text', hnames, hname'⟩, -⟩ := hf
  rwa [← Text.utf8_injective (hname'.symm.trans hname)]

section Files

variable {r : LogRetention} {s : FileStore} {d : List FileName} {es : Entries} {b suffix : String}

theorem sibling_stays (htidy : ∀ d es, s.Holds r.directory d es → IsTidy es)
    (hs : s.Holds r.directory d es) (hsuffix : ¬mark <:+: suffix.toList)
    (hother : ¬Resembles r.logName b suffix) (h : Hindrance) (now : Int) {e : FileEntry}
    (he : (Text.utf8 (b ++ ".log." ++ suffix), e) ∈ es) :
    ∃ es', (r.run (hindered h) now s).2.Holds r.directory d es' ∧
      (Text.utf8 (b ++ ".log." ++ suffix), e) ∈ es' := by
  refine run_keeps htidy h now hs he fun f hf hfname => hother ?_
  exact (names_iff hsuffix).mp (lists_name hf hfname)

theorem sibling_goes (htidy : ∀ d es, s.Holds r.directory d es → IsTidy es)
    (hs : s.Holds r.directory d es) (hsuffix : ¬mark <:+: suffix.toList)
    (hlike : Resembles r.logName b suffix) {now : Int} {id : Nat} {modified : Int}
    {content : String}
    (he : (Text.utf8 (b ++ ".log." ++ suffix), .file id modified content) ∈ es)
    (hlater : ∃ g, r.Lists es g ∧
      (LogFile.mk modified (Text.utf8 (b ++ ".log." ++ suffix))).place < g.place)
    (hold : (r.maxAge.nanos : Int) ≤ max 0 (now - modified))
    (hreadable : ¬Unreadable FileStore.system r s) :
    ∃ es', (r.run FileStore.system now s).2.Holds r.directory d es' ∧
      ∀ e, (Text.utf8 (b ++ ".log." ++ suffix), e) ∉ es' := by
  have hlists : r.Lists es ⟨modified, Text.utf8 (b ++ ".log." ++ suffix)⟩ :=
    ⟨⟨_, (names_iff hsuffix).mpr hlike, rfl⟩, id, content, he⟩
  rw [← hindered_none] at hreadable ⊢
  exact run_drops htidy hreadable (fun _ _ => rfl) hs ⟨hlists, hlater, hold⟩

end Files

/-- What becomes of the files of a worker when another worker with another id removes its own old
logs. A file stays, whatever else happens, unless it is named like the files of the other one's log.
If it is, it goes like those. Logs have one name if and only if a piece of one worker id can be moved
to the front, and no file of the one is named like those of the other if both ids and both names are
free of what may be mistaken. -/
theorem removes_of_sibling_iff (settings : Settings) {i j : AgentIdentity}
    (hids : i.agentId ≠ j.agentId) (type type' : Option String) (services services' : List String) :
    let a := (Role.supervised i).logName type services
    let b := (Role.supervised j).logName type' services'
    let r := Run.logRetention settings a
    (a = b ↔
      Text.Shifted "_" (Role.logBase type services) i.agentId (Role.logBase type' services')
        j.agentId ∨
      Text.Shifted "_" (Role.logBase type' services') j.agentId (Role.logBase type services)
        i.agentId) ∧
    ('_' ∉ i.agentId.toList → '_' ∉ j.agentId.toList → ¬".log".toList <:+: a.toList →
      ¬".log".toList <:+: b.toList → ∀ suffix, ¬Resembles a b suffix) ∧
    ∀ (s : FileStore) (d : List FileName) (es : Entries) (suffix : String),
      (∀ d es, s.Holds r.directory d es → IsTidy es) → s.Holds r.directory d es →
      ¬".log.".toList <:+: suffix.toList →
      let name := Text.utf8 (b ++ ".log." ++ suffix)
      (¬Resembles a b suffix → ∀ h now e, (name, e) ∈ es → ∃ es',
        (r.run (hindered h) now s).2.Holds r.directory d es' ∧ (name, e) ∈ es') ∧
      (Resembles a b suffix → ∀ now id modified content, (name, .file id modified content) ∈ es →
        (∃ g, r.Lists es g ∧ (LogFile.mk modified name).place < g.place) →
        (r.maxAge.nanos : Int) ≤ max 0 (now - modified) → ¬Unreadable FileStore.system r s →
        ∃ es', (r.run FileStore.system now s).2.Holds r.directory d es' ∧
          ∀ e, (name, e) ∉ es') := by
  intro a b r
  have hname := logName_eq_iff hids type type' services services'
  refine ⟨hname, fun hi hj ha hb suffix => ?_, fun s d es suffix htidy hs hsuffix => ⟨?_, ?_⟩⟩
  · refine not_resembles (fun hsame => ?_) ha hb
    rcases hname.mp hsame with hshifted | hshifted
    · exact Text.not_shifted (c := '_') rfl hi hshifted
    · exact Text.not_shifted (c := '_') rfl hj hshifted
  · intro hother h now e he
    exact sibling_stays htidy hs hsuffix hother h now he
  · intro hlike now id modified content he hlater hold hreadable
    exact sibling_goes htidy hs hsuffix hlike he hlater hold hreadable

/-- Settings by which logs go at once. -/
def forgetful : Settings := { Settings.default with general := ⟨"./work", [], "logs", 0, false⟩ }

/-- A file of the second worker stays, whatever is refused to the first one. -/
theorem removes_of_sibling_iff_apart :
    let i : AgentIdentity := ⟨"1", "svc"⟩
    let j : AgentIdentity := ⟨"2", "svc"⟩
    let r := Run.logRetention forgetful ((Role.supervised i).logName (some "gsc") [])
    let b := (Role.supervised j).logName (some "gsc") []
    let name := Text.utf8 (b ++ ".log." ++ "2026-10-16")
    let s := twoLogs name (Text.utf8 "gsc_1.log.2026-10-17") 0 7
    i.agentId ≠ j.agentId ∧ ∀ h now, ∃ es',
      (r.run (hindered h) now s).2.Holds r.directory [Text.utf8 "logs"] es' ∧
        (name, .file 0 0 "") ∈ es' := by
  intro i j r b name s
  have hids : i.agentId ≠ j.agentId := by decide
  have hs : s.Holds r.directory [Text.utf8 "logs"] _ := holds_twoLogs ..
  have htidy : ∀ d es, s.Holds r.directory d es → IsTidy es := fun d es hes =>
    (hes.unique hs).2 ▸ ⟨by decide +kernel, by decide +kernel⟩
  obtain ⟨-, happart, hfiles⟩ :=
    removes_of_sibling_iff forgetful hids (some "gsc") (some "gsc") [] []
  obtain ⟨hstays, -⟩ := hfiles s _ _ "2026-10-16" htidy hs (by decide +kernel)
  refine ⟨hids, fun h now => hstays (happart ?_ ?_ ?_ ?_ _) h now _ List.mem_cons_self⟩
  · decide
  · decide
  · decide +kernel
  · decide +kernel

/-- Two workers with different ids may write logs of one name, and a worker may remove a file of
another one whose log has another name. -/
theorem removes_of_sibling :
    let a := (Role.supervised ⟨"1", "svc"⟩).logName (some "gsc") []
    let b := (Role.supervised ⟨"2", "svc"⟩).logName (some "gsc_1.log.gsm") []
    let r := Run.logRetention forgetful a
    let name := Text.utf8 (b ++ ".log." ++ "2026-10-16")
    let latest := Text.utf8 (a ++ ".log." ++ "2026-10-17")
    let s := twoLogs name latest 0 7
    (Role.supervised ⟨"m_4", "svc"⟩).logName none ["GSC"] =
      (Role.supervised ⟨"4", "svc"⟩).logName none ["GSC", "M"] ∧
    ¬".log.".toList <:+: "2026-10-16".toList ∧ ¬".log.".toList <:+: "2026-10-17".toList ∧
    ∃ es', (r.run FileStore.system 10 s).2.Holds r.directory [Text.utf8 "logs"] es' ∧
      ∀ e, (name, e) ∉ es' := by
  intro a b r name latest s
  have hs : s.Holds r.directory [Text.utf8 "logs"] _ := holds_twoLogs ..
  have htidy : IsTidy [(name, .file 0 0 ""), (latest, .file 1 7 "")] :=
    ⟨by decide +kernel, by decide +kernel⟩
  have hreadable : ¬Unreadable FileStore.system r s := by
    rw [← hindered_none]
    refine readable_twoLogs htidy fun text htext => ?_
    rcases htext with htext | htext <;> obtain rfl := Text.utf8_injective htext <;>
      exact ⟨by dsimp only [IsUsable]; decide +kernel, by dsimp only [IsName]; decide +kernel⟩
  have hnames : r.Names (a ++ ".log." ++ "2026-10-17") := by
    dsimp only [Names]
    decide +kernel
  have hlater : ∃ g, r.Lists [(name, .file 0 0 ""), (latest, .file 1 7 "")] g ∧
      (LogFile.mk 0 name).place < g.place :=
    ⟨⟨7, latest⟩, lists_twoLogs.mpr ⟨⟨_, hnames, rfl⟩, .inr rfl⟩, by decide +kernel⟩
  have hall : ∀ d es, s.Holds r.directory d es → IsTidy es := fun d es hes =>
    (hes.unique hs).2 ▸ htidy
  have hlike : Resembles r.logName b "2026-10-16" := .front (by decide +kernel)
  have hold : (r.maxAge.nanos : Int) ≤ max 0 (10 - 0) := by decide +kernel
  refine ⟨by decide +kernel, by decide +kernel, by decide +kernel, ?_⟩
  exact sibling_goes hall hs (by decide +kernel) hlike List.mem_cons_self hlater hold hreadable

end LogRetention

end SupervisedWorker

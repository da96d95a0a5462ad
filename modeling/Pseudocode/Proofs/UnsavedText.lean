import Pseudocode.Workbench

set_option autoImplicit false

namespace Pseudocode

namespace Workbench

structure Step where
  action : Action
  storage : Storage

def after [Toolkit] (w : Workbench) (step : Step) : Workbench :=
  match w.perform step.action step.storage with
  | .ok next => next
  | .error _ => w

def afterAll [Toolkit] (w : Workbench) (steps : List Step) : Workbench :=
  steps.foldl after w

def Action.reply? : Action → Option Reply
  | .new reply _ => some reply
  | .open reply _ _ => some reply
  | _ => none

def saveTarget? (w : Workbench) (path : String) : Option String :=
  match w.currentFile with
  | some file => some file
  | none => if path.isEmpty then none else some path

def target? (w : Workbench) : Action → Option String
  | .save path => w.saveTarget? path
  | .saveAs path => if path.isEmpty then none else some path
  | .new .save path => if w.modified then w.saveTarget? path else none
  | .open .save _ saved => if w.modified then w.saveTarget? saved else none
  | _ => none

def Writes [Toolkit] (w : Workbench) (step : Step) : Prop :=
  ∃ file, w.target? step.action = some file ∧
    step.storage.write w.disk file w.document = .ok (w.after step).disk

/-- The step leaves another text in the editor than was there, and not because the user typed it. -/
def Replaces [Toolkit] (w : Workbench) (step : Step) : Prop :=
  (∀ text, step.action ≠ .type text) ∧ (w.after step).document ≠ w.document

def HasWritten [Toolkit] (w : Workbench) (steps : List Step) (text : String) : Prop :=
  ∃ before step later, steps = before ++ step :: later ∧ (w.afterAll before).Writes step ∧
    (w.afterAll before).document = text

/-- Whenever in the run a text with unsaved changes is replaced, the user has discarded it or it has been
written to a file. -/
def KeepsText [Toolkit] (w : Workbench) (steps : List Step) : Prop :=
  ∀ before step later, steps = before ++ step :: later → (w.afterAll before).modified = true →
    (w.afterAll before).Replaces step →
    step.action.reply? = some .discard ∨ w.HasWritten (before ++ [step]) (w.afterAll before).document

/-- The user wants unsaved changes saved, no file is chosen or the file cannot be written, and the text
gives way all the same. -/
structure LosesText [Toolkit] (w : Workbench) (step : Step) : Prop where
  modified : w.modified = true
  replaced : w.Replaces step
  asked : step.action.reply? = some .save
  unsaved : ∀ file, w.target? step.action = some file →
    ∃ message, step.storage.write w.disk file w.document = .error message

section Save

variable {w : Workbench} {storage : Storage} {path file : String} {disk : Disk}

theorem document_writeTo {done : Workbench → Workbench} (keeps : ∀ w, (done w).document = w.document) :
    (w.writeTo path storage done).document = w.document := by
  unfold writeTo
  split
  · rw [keeps]
  · rfl

theorem disk_writeTo {done : Workbench → Workbench} (keeps : ∀ w, (done w).disk = w.disk)
    (written : storage.write w.disk path w.document = .ok disk) :
    (w.writeTo path storage done).disk = disk := by
  rw [writeTo, written]
  exact keeps _

@[simp] theorem document_saveAs : (w.saveAs path storage).document = w.document := by
  unfold saveAs
  split
  · rfl
  · exact document_writeTo fun _ => rfl

@[simp] theorem document_save : (w.save path storage).document = w.document := by
  unfold save
  split
  · exact document_writeTo fun _ => rfl
  · exact document_saveAs

theorem disk_save (target : w.saveTarget? path = some file)
    (written : storage.write w.disk file w.document = .ok disk) :
    (w.save path storage).disk = disk := by
  match current : w.currentFile with
  | some named =>
    obtain rfl : named = file := by simpa [saveTarget?, current] using target
    simp only [save, current]
    exact disk_writeTo (fun _ => rfl) written
  | none =>
    obtain ⟨chosen, rfl⟩ : ¬ path.isEmpty = true ∧ path = file := by
      simpa [saveTarget?, current] using target
    simp only [save, current, saveAs, if_neg chosen]
    exact disk_writeTo (fun _ => rfl) written

end Save

section Document

variable {w next : Workbench}

@[simp] theorem document_showEnding (ending : Ending) : (w.showEnding ending).document = w.document := by
  unfold showEnding failRun
  split
  · dsimp only
    split <;> rfl
  · rfl
  · rfl

@[simp] theorem document_run (answers : List (Option String)) : (w.run answers).document = w.document := by
  unfold run
  split
  · rfl
  · exact document_showEnding _

@[simp] theorem document_removeFolder (path : String) : (w.removeFolder path).document = w.document := by
  unfold removeFolder
  split <;> rfl

theorem document_applySettings (done : w.applySettings = .ok next) : next.document = w.document := by
  simp only [applySettings, bind, Except.bind, pure, Except.pure] at done
  grind

theorem document_showSettings [Toolkit] {accepted : Bool} (done : w.showSettings accepted = .ok next) :
    next.document = w.document := by
  simp only [showSettings, bind, Except.bind, pure, Except.pure] at done
  have := @document_applySettings w
  grind

theorem document_restyle {editor output : Json.Members} (done : w.restyle editor output = .ok next) :
    next.document = w.document := by
  simp only [restyle, bind, Except.bind] at done
  split at done
  · cases done
  · split at done
    · cases done
    · exact (document_applySettings done :)

theorem document_after_of_reply? [Toolkit] {step : Step} (unasked : step.action.reply? = none)
    (untyped : ∀ text, step.action ≠ .type text) : (w.after step).document = w.document := by
  unfold after
  split
  case h_2 => rfl
  case h_1 next done =>
    unfold perform at done
    split at done
    case h_1 text action => exact absurd action (untyped text)
    case h_4 action => rw [action] at unasked; cases unasked
    case h_5 action => rw [action] at unasked; cases unasked
    case h_9 => exact (document_showSettings done :)
    case h_10 => exact (document_restyle done :)
    all_goals
      cases done
      simp [clearConsole, notify]

end Document

section Question

variable {w : Workbench} {step : Step} {storage : Storage} {path file : String} {disk : Disk}

theorem disk_openPath : (w.openPath path storage).disk = w.disk := by
  unfold openPath
  split
  · rfl
  · split <;> rfl

theorem document_newDocument_cancel (modified : w.modified = true) :
    (w.newDocument .cancel path storage).document = w.document := by
  simp [newDocument, settleChanges, modified, notify]

theorem document_openDocument_cancel {opened : String} (modified : w.modified = true) :
    (w.openDocument .cancel opened path storage).document = w.document := by
  simp [openDocument, settleChanges, modified, notify]

theorem disk_newDocument_save (modified : w.modified = true) (target : w.saveTarget? path = some file)
    (written : storage.write w.disk file w.document = .ok disk) :
    (w.newDocument .save path storage).disk = disk := by
  simp only [newDocument, settleChanges, modified, if_true]
  exact disk_save (w := w.notify unsavedQuestion) target written

theorem disk_openDocument_save {opened : String} (modified : w.modified = true)
    (target : w.saveTarget? path = some file)
    (written : storage.write w.disk file w.document = .ok disk) :
    (w.openDocument .save opened path storage).disk = disk := by
  simp only [openDocument, settleChanges, modified, if_true, disk_openPath]
  exact disk_save (w := w.notify unsavedQuestion) target written

theorem document_after_of_cancel [Toolkit] (modified : w.modified = true)
    (reply : step.action.reply? = some .cancel) : (w.after step).document = w.document := by
  obtain ⟨action, storage⟩ := step
  cases action <;> simp only [Action.reply?, Option.some.injEq, reduceCtorEq] at reply
  case new =>
    subst reply
    show (newDocument _ _ _ _).document = _
    exact document_newDocument_cancel (w := { w with boxes := [] }) modified
  case «open» =>
    subst reply
    show (openDocument _ _ _ _ _).document = _
    exact document_openDocument_cancel (w := { w with boxes := [] }) modified

theorem reply?_of_replaces [Toolkit] (modified : w.modified = true) (replaced : w.Replaces step) :
    step.action.reply? = some .save ∨ step.action.reply? = some .discard := by
  obtain ⟨untyped, changed⟩ := replaced
  match reply : step.action.reply? with
  | none => exact absurd (document_after_of_reply? reply untyped) changed
  | some .cancel => exact absurd (document_after_of_cancel modified reply) changed
  | some .save => exact .inl rfl
  | some .discard => exact .inr rfl

theorem writes_of_asked [Toolkit] (modified : w.modified = true) (asked : step.action.reply? = some .save)
    (target : w.target? step.action = some file)
    (written : step.storage.write w.disk file w.document = .ok disk) : w.Writes step := by
  refine ⟨file, target, ?_⟩
  rw [written]
  congr 1
  obtain ⟨action, storage⟩ := step
  cases action <;> simp only [Action.reply?, Option.some.injEq, reduceCtorEq] at asked
  case new =>
    subst asked
    simp only [target?, modified, if_true] at target
    exact (disk_newDocument_save (w := { w with boxes := [] }) modified target written).symm
  case «open» =>
    subst asked
    simp only [target?, modified, if_true] at target
    exact (disk_openDocument_save (w := { w with boxes := [] }) modified target written).symm

end Question

section Run

variable [Toolkit] {w : Workbench} {before : List Step} {step : Step} {text : String}

theorem hasWritten_concat :
    w.HasWritten (before ++ [step]) text ↔ w.HasWritten before text ∨
      (w.afterAll before).Writes step ∧ (w.afterAll before).document = text := by
  constructor
  · rintro ⟨earlier, writing, later, cut, writes, same⟩
    -- Either the last step has written the text or an earlier one has.
    rcases List.eq_nil_or_concat later with rfl | ⟨later, last, rfl⟩
    · obtain ⟨rfl, rfl⟩ := List.append_singleton_inj.mp cut
      exact .inr ⟨writes, same⟩
    · rw [List.concat_eq_append, ← List.cons_append, ← List.append_assoc] at cut
      obtain ⟨rfl, rfl⟩ := List.append_singleton_inj.mp cut
      exact .inl ⟨earlier, writing, later, rfl, writes, same⟩
  · rintro (⟨earlier, writing, later, rfl, writes, same⟩ | ⟨writes, same⟩)
    · exact ⟨earlier, writing, later ++ [step], by simp, writes, same⟩
    · exact ⟨before, step, [], rfl, writes, same⟩

theorem LosesText.not_writes (lost : w.LosesText step) : ¬ w.Writes step := by
  rintro ⟨file, target, written⟩
  obtain ⟨message, refused⟩ := lost.unsaved file target
  rw [refused] at written
  cases written

theorem writes_or_losesText (modified : w.modified = true) (replaced : w.Replaces step)
    (asked : step.action.reply? = some .save) : w.Writes step ∨ w.LosesText step := by
  by_cases writes : w.Writes step
  · exact .inl writes
  · refine .inr ⟨modified, replaced, asked, fun file target => ?_⟩
    -- A write that succeeds would be one of the step's own.
    match written : step.storage.write w.disk file w.document with
    | .ok disk => exact absurd (writes_of_asked modified asked target written) writes
    | .error message => exact ⟨message, rfl⟩

end Run

/-- A run of actions keeps unsaved text exactly if every text that it loses has been written to a file
earlier in the run. -/
theorem keepsText_iff_lost_written [Toolkit] (w : Workbench) (steps : List Step) :
    w.KeepsText steps ↔
      ∀ before step later, steps = before ++ step :: later → (w.afterAll before).LosesText step →
        w.HasWritten before (w.afterAll before).document := by
  constructor
  · intro keeps before step later cut lost
    rcases keeps before step later cut lost.modified lost.replaced with discarded | written
    · rw [lost.asked] at discarded
      cases discarded
    · rcases hasWritten_concat.mp written with earlier | ⟨writes, _⟩
      · exact earlier
      · exact absurd writes lost.not_writes
  · intro lostWritten before step later cut modified replaced
    rcases reply?_of_replaces modified replaced with asked | discarded
    · refine .inr (hasWritten_concat.mpr ?_)
      rcases writes_or_losesText modified replaced asked with writes | lost
      · exact .inr ⟨writes, rfl⟩
      · exact .inl (lostWritten before step later cut lost)
    · exact .inl discarded

def blank : Workbench where
  settings := ⟨Settings.defaultFile, Settings.factoryEditor, Settings.factoryOutput, Settings.sharing⟩
  disk := ⟨[], []⟩
  machine := .start .linux []
  folder := ""
  title := applicationTitle
  status := "Ready"
  console := ""
  document := ""
  modified := false
  currentFile := none
  editorLook := plainLook
  consoleLook := plainLook
  boxes := []

/-- A text is typed, a new document asked for, and no file chosen when the text is to be saved: the text
is gone. -/
theorem abandoned_save_loses_text :
    ¬ blank.KeepsText [⟨.type "x", .plain⟩, ⟨.new .save "", .plain⟩] := by
  intro keeps
  rcases keeps [⟨.type "x", .plain⟩] ⟨.new .save "", .plain⟩ [] rfl rfl ⟨nofun, by decide⟩ with
    discarded | written
  · cases discarded
  · rcases hasWritten_concat.mp written with
      ⟨earlier, step, later, cut, ⟨file, target, _⟩, _⟩ | ⟨⟨file, target, _⟩, _⟩
    · obtain ⟨rfl, rfl⟩ : earlier = [] ∧ step = ⟨.type "x", .plain⟩ := by
        cases earlier <;> simp_all
      cases target
    · cases target

end Workbench

end Pseudocode

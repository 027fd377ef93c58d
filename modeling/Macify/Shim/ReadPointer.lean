import Macify.Lib.Loop
import Macify.Shim.Stdio

/-!
# The read pointer between the calls

Each time a wrapper hands a stream to the C library, `_IO_read_ptr` should be what the C library last left there.
`read_ptr_undone` says so for every run whose calls are `Allowed`: a pointer is only overlaid when it has a slot and
the next call will put it back, and no call of the C library leaves an old pointer in the table.
-/

namespace Macify.Shim
open Lib

inductive StreamCall where
  | fopen (fp : W64) (terminfo : Bool) (file : File)
  | fdopen (fp : W64) (file : File)
  | srget (fp : W64) (answer : Answer)
  | fgetc (fp : W64) (answer : Answer)
  | fread (fp : W64) (answer : Answer)
  | fgets (fp : W64) (answer : Answer)
  | ungetc (fp : W64) (answer : Answer)
  | fseeko (fp : W64) (answer : Answer)

namespace StreamCall

def fp : StreamCall → W64
  | fopen fp _ _ | fdopen fp _ | srget fp _ | fgetc fp _ | fread fp _ | fgets fp _ | ungetc fp _
  | fseeko fp _ => fp

def file : StreamCall → File
  | fopen _ _ file | fdopen _ file => file
  | srget _ answer | fgetc _ answer | fread _ answer | fgets _ answer | ungetc _ answer
  | fseeko _ answer => answer.file

def opens : StreamCall → Bool
  | fopen .. | fdopen .. => true
  | _ => false

def wrapper (cfg : StdioFlags) : StreamCall → Wrapper
  | fopen fp terminfo _ => Shim.fopen true fp terminfo
  | fdopen fp _ => Shim.fdopen cfg true fp
  | srget fp answer => Shim.srget cfg true fp answer
  | fgetc fp answer => Shim.fgetc cfg fp answer
  | fread fp answer => Shim.fread cfg fp answer
  | fgets _ _ => Shim.fgets
  | ungetc fp answer => Shim.ungetc cfg fp answer
  | fseeko fp _ => Shim.fseeko cfg fp

end StreamCall

structure History where
  streams : Streams
  left : W64 → W64
  isOpen : W64 → Bool

namespace History

def step (cfg : StdioFlags) (h : History) (call : StreamCall) : History where
  streams :=
    let w := call.wrapper cfg
    w.after ((w.before h.streams).setFile call.fp call.file)
  left := fun x => if x = call.fp then call.file.readPtr else h.left x
  isOpen := fun x => if x = call.fp then true else h.isOpen x

/-- A new stream is none of the open ones; any other call is on an open one. -/
def Valid (h : History) (call : StreamCall) : Prop := h.isOpen call.fp = !call.opens

def Undone (cfg : StdioFlags) (h : History) (call : StreamCall) : Prop :=
  call.opens = false → (((call.wrapper cfg).before h.streams).files call.fp).readPtr = h.left call.fp

def Start (h : History) : Prop :=
  h.streams.saved = List.replicate MACIFY_MAX_SAVED_FPS none ∧
    ∀ fp, h.isOpen fp = true → (h.streams.files fp).readPtr = h.left fp

end History

instance {h : History} {call : StreamCall} : Decidable (h.Valid call) := by
  unfold History.Valid
  infer_instance

instance {cfg : StdioFlags} {h : History} {call : StreamCall} : Decidable (h.Undone cfg call) := by
  unfold History.Undone
  infer_instance

def FixKeeps (p bufBase : W64) : Prop := sanePtr p = true ∨ saneBase bufBase = false ∨ bufBase = p

def NotStale (fp p : W64) (st : Streams) : Prop := ∀ q ∈ st.saved.find fp, q = p

/-- The C library leaves a pointer that is not saved, `fgets` finds it as it is, and an overlaid one has a slot. -/
def Allowed (cfg : StdioFlags) (h : History) : StreamCall → Prop
  | .fopen .. => True
  | .fdopen fp _ => cfg.skipRPatch = true ∨ cfg.isGlibcStandard fp = true ∨
      cfg.getcPatched = false ∧ h.streams.saved.Room fp
  | .srget fp answer | .fgetc fp answer => cfg.getcPatched = true ∨
      FixKeeps (h.left fp) (h.streams.files fp).bufBase ∧
        (answer.ret ≠ EOF ∧ cfg.overlays fp = true → h.streams.saved.Room fp)
  | .fread fp answer => cfg.getcPatched = true ∨
      FixKeeps (h.left fp) (h.streams.files fp).bufBase ∧
        (answer.ret ≠ 0 ∧ cfg.overlays fp = true → h.streams.saved.Room fp)
  | .fgets fp answer => cfg.getcPatched = true ∨
      ¬Overlaid (h.streams.files fp).readPtr ∧ NotStale fp answer.file.readPtr h.streams
  | .ungetc fp answer => cfg.getcPatched = true ∨
      FixKeeps (h.left fp) (h.streams.files fp).bufBase ∧
        if answer.ret ≠ EOF ∧ cfg.overlays fp = true then h.streams.saved.Room fp
        else NotStale fp answer.file.readPtr h.streams
  | .fseeko fp _ => cfg.getcPatched = true ∨ FixKeeps (h.left fp) (h.streams.files fp).bufBase

instance {cfg : StdioFlags} {h : History} {call : StreamCall} : Decidable (Allowed cfg h call) := by
  cases call <;> unfold Allowed <;> unfold FixKeeps NotStale Overlaid <;> infer_instance

/-- The pointer `p` that the C library left is in the stream, or in the table with the stream overlaid. -/
structure Settled (fp p : W64) (st : Streams) : Prop where
  notStale : NotStale fp p st
  shown : (st.files fp).readPtr = p ∨ (st.saved.find fp).isSome ∧ Overlaid (st.files fp).readPtr

lemma Settled.congr {fp p : W64} {st st' : Streams} (settled : Settled fp p st)
    (files : st'.files fp = st.files fp) (found : st'.saved.find fp = st.saved.find fp) :
    Settled fp p st' where
  notStale := by
    unfold NotStale
    rw [found]
    exact settled.notStale
  shown := by
    rw [files, found]
    exact settled.shown

namespace Streams

variable {fp x p : W64} {st : Streams} {file : File}

@[simp] lemma files_setFile_self : (st.setFile fp file).files fp = file := if_pos rfl

lemma files_setFile_other (ne : x ≠ fp) : (st.setFile fp file).files x = st.files x := if_neg ne

@[simp] lemma saved_restoreReadPtr : (st.restoreReadPtr fp).saved = st.saved := by
  unfold restoreReadPtr
  cases st.saved.find fp <;> rfl

lemma overlaid_overlay : Overlaid ((st.overlay fp).files fp).readPtr := by
  rw [overlay, files_setFile_self, Overlaid]
  refine BitVec.eq_of_getLsbD_eq fun k _ => ?_
  rw [BitVec.getLsbD_and, BitVec.getLsbD_or]
  cases (0xFFFFFFFF : W64).getLsbD k with
  | false => exact Bool.and_false _
  | true => rw [Bool.or_true, Bool.and_true]

lemma room_saveReadPtr (room : st.saved.Room fp) : (st.saveReadPtr fp).saved.Room fp :=
  .inl (Option.isSome_of_eq_some (Slots.find_put_self room))

lemma settled_saveReadPtr : Settled fp (st.files fp).readPtr (st.saveReadPtr fp) where
  notStale q found := by
    by_cases room : st.saved.Room fp
    · exact Option.some.inj (found.symm.trans (Slots.find_put_self room))
    · cases found.symm.trans (Slots.find_put_full room)
  shown := .inl rfl

lemma settled_overlay (settled : Settled fp p st) (found : (st.saved.find fp).isSome) :
    Settled fp p (st.overlay fp) :=
  ⟨settled.notStale, .inr ⟨found, overlaid_overlay⟩⟩

lemma settled_setFile (settled : Settled fp p st) (same : file.readPtr = (st.files fp).readPtr) :
    Settled fp p (st.setFile fp file) where
  notStale := settled.notStale
  shown := by
    rw [files_setFile_self, same]
    exact settled.shown

lemma settled_save_overlay (ptr : (st.files fp).readPtr = p) (room : st.saved.Room fp) :
    Settled fp p ((st.saveReadPtr fp).overlay fp) := by
  subst ptr
  exact settled_overlay settled_saveReadPtr (Option.isSome_of_eq_some (Slots.find_put_self room))

lemma readPtr_restoreReadPtr (settled : Settled fp p st) (fix : FixKeeps p (st.files fp).bufBase) :
    ((st.restoreReadPtr fp).files fp).readPtr = p := by
  have kept {file : File} (ptr : file.readPtr = p) (base : file.bufBase = (st.files fp).bufBase) :
      (fixReadEnd file).readPtr = p := by
    subst ptr
    rw [← base] at fix
    unfold fixReadEnd
    split
    next => split <;> rfl
    next insane =>
      split
      next sane => exact (fix.resolve_left insane).resolve_left fun h => Bool.false_ne_true (h.symm.trans sane)
      next => rfl
  unfold restoreReadPtr
  cases found : st.saved.find fp with
  | some q =>
    rw [files_setFile_self]
    exact kept (settled.notStale q found) rfl
  | none =>
    rw [files_setFile_self]
    refine kept (settled.shown.resolve_right fun h => ?_) rfl
    rw [found] at h
    cases h.1

end Streams

def Local (fp : W64) (f : Streams → Streams) : Prop :=
  ∀ st x, x ≠ fp → (f st).files x = st.files x ∧ (f st).saved.find x = st.saved.find x

namespace Local

variable {fp : W64} {f g : Streams → Streams}

lemma id : Local fp fun st => st := fun _ _ _ => ⟨rfl, rfl⟩

lemma comp (hg : Local fp g) (hf : Local fp f) : Local fp fun st => g (f st) := fun st x ne =>
  ⟨(hg (f st) x ne).1.trans (hf st x ne).1, (hg (f st) x ne).2.trans (hf st x ne).2⟩

lemma ite {c : Prop} [Decidable c] (hf : Local fp f) (hg : Local fp g) :
    Local fp fun st => if c then f st else g st := by
  split
  · exact hf
  · exact hg

lemma setFile {file : Streams → File} : Local fp fun st => st.setFile fp (file st) := fun _ _ ne =>
  ⟨Streams.files_setFile_other ne, rfl⟩

lemma saveReadPtr : Local fp (Streams.saveReadPtr fp) := fun _ _ ne => ⟨rfl, Slots.find_put_other ne⟩

lemma overlay : Local fp (Streams.overlay fp) := fun _ _ ne => ⟨Streams.files_setFile_other ne, rfl⟩

lemma restoreReadPtr : Local fp (Streams.restoreReadPtr fp) := by
  intro st x ne
  unfold Streams.restoreReadPtr
  cases st.saved.find fp with
  | some p | none => exact ⟨Streams.files_setFile_other ne, rfl⟩

end Local

lemma wrapper_local {cfg : StdioFlags} {call : StreamCall} :
    Local call.fp (call.wrapper cfg).before ∧ Local call.fp (call.wrapper cfg).after := by
  cases call with
  | fopen => exact ⟨.id, .ite .saveReadPtr .id⟩
  | fdopen => exact ⟨.id, .ite (.comp .overlay .saveReadPtr) .saveReadPtr⟩
  | srget fp answer =>
    have shows : Local fp fun st =>
        if answer.ret ≠ EOF ∧ true ∧ cfg.overlays fp then (st.saveReadPtr fp).overlay fp else st :=
      .ite (.comp .overlay .saveReadPtr) .id
    exact ⟨.ite .restoreReadPtr .id, shows.comp (.ite .saveReadPtr .id)⟩
  | fgetc fp answer =>
    have shows : Local fp fun st => if answer.ret ≠ EOF ∧ cfg.overlays fp then st.overlay fp else st :=
      .ite .overlay .id
    exact ⟨.ite .id .restoreReadPtr, shows.comp (.ite .id .saveReadPtr)⟩
  | fread fp answer =>
    have shows : Local fp fun st =>
        if answer.ret ≠ 0 ∧ cfg.overlays fp then (st.saveReadPtr fp).overlay fp else st :=
      .ite (.comp .overlay .saveReadPtr) .id
    have marks : Local fp fun st => st.setFile fp (markEof answer.ret (st.files fp)) := .setFile
    exact ⟨.ite .id .restoreReadPtr, shows.comp (marks.comp (.ite .id .saveReadPtr))⟩
  | fgets => exact ⟨.id, .id⟩
  | ungetc => exact ⟨.ite .id .restoreReadPtr, .ite (.comp .overlay .saveReadPtr) .id⟩
  | fseeko => exact ⟨.ite .id .restoreReadPtr, .ite .id .saveReadPtr⟩

/-- The pointer of every open stream can be brought back, and others have no slot. A patched `getc` brings
    nothing back. -/
structure Kept (cfg : StdioFlags) (h : History) : Prop where
  opened : ∀ fp, h.isOpen fp = true →
    if cfg.getcPatched then (h.streams.files fp).readPtr = h.left fp else Settled fp (h.left fp) h.streams
  closed : ∀ fp, h.isOpen fp = false → h.streams.saved.find fp = none

section Steps

variable {cfg : StdioFlags} {h : History} {call : StreamCall}

lemma saved_before : ((call.wrapper cfg).before h.streams).saved = h.streams.saved := by
  cases call with
  | fopen | fdopen | fgets => rfl
  | srget | fgetc | fread | ungetc | fseeko =>
    simp only [StreamCall.wrapper, srget, fgetc, fread, ungetc, fseeko]
    split
    all_goals first | rfl | exact Streams.saved_restoreReadPtr

lemma before_patched (patched : cfg.getcPatched = true) : (call.wrapper cfg).before h.streams = h.streams := by
  cases call with
  | fopen | fdopen | fgets => rfl
  | srget | fgetc | fread | ungetc | fseeko =>
    simp [StreamCall.wrapper, srget, fgetc, fread, ungetc, fseeko, patched]

lemma undone_of_kept (kept : Kept cfg h) (valid : h.Valid call) (allowed : Allowed cfg h call) :
    h.Undone cfg call := by
  intro other
  have isOpen : h.isOpen call.fp = true := by rw [valid, other, Bool.not_false]
  have opened := kept.opened call.fp isOpen
  cases patched : cfg.getcPatched with
  | true =>
    rw [patched, if_pos rfl] at opened
    rw [before_patched patched, opened]
  | false =>
    rw [patched, if_neg Bool.false_ne_true] at opened
    have notPatched := ne_true_of_eq_false patched
    cases call with
    | fopen | fdopen => cases other
    | fgets fp answer =>
      obtain ⟨shown, _⟩ := allowed.resolve_left notPatched
      exact opened.shown.resolve_right fun h => shown h.2
    | srget fp answer =>
      obtain ⟨fix, _⟩ := allowed.resolve_left notPatched
      simp only [StreamCall.wrapper, srget, patched]
      exact Streams.readPtr_restoreReadPtr opened fix
    | fgetc fp answer | fread fp answer | ungetc fp answer =>
      obtain ⟨fix, _⟩ := allowed.resolve_left notPatched
      simp only [StreamCall.wrapper, fgetc, fread, ungetc, patched]
      exact Streams.readPtr_restoreReadPtr opened fix
    | fseeko fp answer =>
      have fix := allowed.resolve_left notPatched
      simp only [StreamCall.wrapper, fseeko, patched]
      exact Streams.readPtr_restoreReadPtr opened fix

lemma readPtr_after_patched {st : Streams} (patched : cfg.getcPatched = true) (allowed : Allowed cfg h call) :
    (((call.wrapper cfg).after st).files call.fp).readPtr = (st.files call.fp).readPtr := by
  have never (fp : W64) : cfg.overlays fp = false := by
    rw [StdioFlags.overlays, patched]
    rfl
  cases call with
  | fopen fp terminfo => cases terminfo <;> rfl
  | fdopen fp =>
    have plain : (!cfg.skipRPatch && !cfg.isGlibcStandard fp) = false := by
      rcases allowed with skip | std | ⟨notPatched, _⟩
      · rw [skip, Bool.not_true, Bool.false_and]
      · rw [std, Bool.not_true, Bool.and_false]
      · cases patched.symm.trans notPatched
    simp only [StreamCall.wrapper, fdopen, plain]
    rfl
  | srget | fgetc | ungetc | fseeko =>
    simp [StreamCall.wrapper, srget, fgetc, ungetc, fseeko, patched, never]
  | fread fp answer =>
    simp only [StreamCall.wrapper, fread, patched, never, if_true, and_false, if_false, StreamCall.fp,
      Streams.files_setFile_self, Bool.false_eq_true]
    rfl
  | fgets => rfl

lemma settled_after (st : Streams) (patched : cfg.getcPatched = false) (kept : Kept cfg h)
    (valid : h.Valid call) (allowed : Allowed cfg h call) (saved : st.saved = h.streams.saved)
    (file : st.files call.fp = call.file) :
    Settled call.fp (st.files call.fp).readPtr ((call.wrapper cfg).after st) := by
  have notPatched := ne_true_of_eq_false patched
  have unsaved (notStale : NotStale call.fp call.file.readPtr h.streams) :
      Settled call.fp (st.files call.fp).readPtr st := by
    refine ⟨fun q found => ?_, .inl rfl⟩
    rw [saved] at found
    rw [file, notStale q found]
  cases call with
  | fopen fp terminfo file =>
    cases terminfo with
    | false => exact Streams.settled_saveReadPtr
    | true =>
      refine ⟨fun q found => ?_, .inl rfl⟩
      cases found.symm.trans ((congrArg _ saved).trans (kept.closed fp valid))
  | fdopen fp file =>
    simp only [StreamCall.wrapper, fdopen, if_true, StreamCall.fp]
    split
    next overlays =>
      rw [Bool.and_eq_true, Bool.not_eq_true', Bool.not_eq_true'] at overlays
      rcases allowed with skip | std | ⟨_, room⟩
      · cases skip.symm.trans overlays.1
      · cases std.symm.trans overlays.2
      · exact Streams.settled_save_overlay rfl (saved ▸ room)
    next => exact Streams.settled_saveReadPtr
  | srget fp answer =>
    obtain ⟨_, room⟩ := allowed.resolve_left notPatched
    simp only [StreamCall.wrapper, srget, patched, Bool.not_false, Bool.and_true, if_true, true_and, StreamCall.fp]
    split
    next overlays =>
      exact Streams.settled_save_overlay rfl (Streams.room_saveReadPtr (saved ▸ room overlays))
    next => exact Streams.settled_saveReadPtr
  | fgetc fp answer =>
    obtain ⟨_, room⟩ := allowed.resolve_left notPatched
    simp only [StreamCall.wrapper, fgetc, patched, Bool.false_eq_true, if_false, StreamCall.fp]
    split
    next overlays => exact Streams.settled_save_overlay rfl (saved ▸ room overlays)
    next => exact Streams.settled_saveReadPtr
  | fread fp answer =>
    obtain ⟨_, room⟩ := allowed.resolve_left notPatched
    simp only [StreamCall.wrapper, fread, patched, Bool.false_eq_true, if_false, StreamCall.fp]
    split
    next overlays =>
      refine Streams.settled_save_overlay ?_ (Streams.room_saveReadPtr (saved ▸ room overlays))
      rw [Streams.files_setFile_self]
      rfl
    next => exact Streams.settled_setFile Streams.settled_saveReadPtr rfl
  | fgets fp answer =>
    obtain ⟨_, notStale⟩ := allowed.resolve_left notPatched
    exact unsaved notStale
  | ungetc fp answer =>
    obtain ⟨_, after⟩ := allowed.resolve_left notPatched
    simp only [StreamCall.wrapper, ungetc, StreamCall.fp]
    split
    next overlays =>
      rw [if_pos overlays] at after
      exact Streams.settled_save_overlay rfl (saved ▸ after)
    next shows =>
      rw [if_neg shows] at after
      exact unsaved after
  | fseeko fp answer =>
    simp only [StreamCall.wrapper, fseeko, patched, Bool.false_eq_true, if_false, StreamCall.fp]
    exact Streams.settled_saveReadPtr

lemma streams_step : (h.step cfg call).streams =
    (call.wrapper cfg).after (((call.wrapper cfg).before h.streams).setFile call.fp call.file) := rfl

lemma left_step_self : (h.step cfg call).left call.fp = call.file.readPtr := if_pos rfl

lemma left_step_other {x : W64} (ne : x ≠ call.fp) : (h.step cfg call).left x = h.left x := if_neg ne

lemma isOpen_step_self : (h.step cfg call).isOpen call.fp = true := if_pos rfl

lemma isOpen_step_other {x : W64} (ne : x ≠ call.fp) : (h.step cfg call).isOpen x = h.isOpen x :=
  if_neg ne

lemma streams_step_other {x : W64} (ne : x ≠ call.fp) :
    (h.step cfg call).streams.files x = h.streams.files x ∧
      (h.step cfg call).streams.saved.find x = h.streams.saved.find x := by
  have set : Local call.fp fun st => st.setFile call.fp call.file := .setFile
  exact (wrapper_local.2.comp (set.comp wrapper_local.1)) h.streams x ne

lemma kept_step (kept : Kept cfg h) (valid : h.Valid call) (allowed : Allowed cfg h call) :
    Kept cfg (h.step cfg call) := by
  refine ⟨fun fp isOpen => ?_, fun fp notOpen => ?_⟩
  · by_cases same : fp = call.fp
    · subst same
      rw [left_step_self, streams_step]
      split
      next patched => rw [readPtr_after_patched patched allowed, Streams.files_setFile_self]
      next notPatched =>
        have settled := settled_after (((call.wrapper cfg).before h.streams).setFile call.fp call.file)
          (Bool.eq_false_iff.mpr notPatched) kept valid allowed saved_before Streams.files_setFile_self
        rwa [Streams.files_setFile_self] at settled
    · rw [isOpen_step_other same] at isOpen
      have opened := kept.opened fp isOpen
      obtain ⟨files, found⟩ := streams_step_other same
      rw [left_step_other same, files]
      split at opened
      next patched => rwa [if_pos patched]
      next notPatched =>
        rw [if_neg notPatched]
        exact opened.congr files found
  · have ne : fp ≠ call.fp := by
      rintro rfl
      cases isOpen_step_self.symm.trans notOpen
    rw [isOpen_step_other ne] at notOpen
    rw [(streams_step_other ne).2]
    exact kept.closed fp notOpen

lemma kept_start (start : h.Start) : Kept cfg h := by
  have free (fp : W64) : h.streams.saved.find fp = none := by
    rw [start.1]
    rfl
  refine ⟨fun fp isOpen => ?_, fun fp _ => free fp⟩
  have shown := start.2 fp isOpen
  split
  next => exact shown
  next =>
    refine ⟨fun q found => ?_, .inl shown⟩
    cases (free fp).symm.trans found

end Steps

/-- In every run of calls that are allowed, the C library finds each read pointer as it left it. -/
theorem read_ptr_undone {cfg : StdioFlags} {h : History} {calls : List StreamCall} (start : h.Start)
    (valid : Along (History.step cfg) History.Valid h calls)
    (allowed : Along (History.step cfg) (Allowed cfg) h calls) :
    Along (History.step cfg) (History.Undone cfg) h calls :=
  Along.of_invariant (Kept cfg)
    (fun _ _ kept ok => ⟨kept_step kept ok.1 ok.2, undone_of_kept kept ok.1 ok.2⟩) (kept_start start)
    (valid.and allowed)

def noStreams : History where
  streams := ⟨fun _ => ⟨0, 0, 0, 0⟩, List.replicate MACIFY_MAX_SAVED_FPS none, rfl⟩
  left := fun _ => 0
  isOpen := fun _ => false

def bufferAt (base n : W64) : File := ⟨0, base + n, base + 8, base⟩

theorem read_ptr_undone_fgetc :
    Along (History.step ⟨false, false, []⟩) (History.Undone ⟨false, false, []⟩) noStreams
      [.fopen 0x100 false ⟨0, 0, 0, 0⟩, .fgetc 0x100 ⟨97, bufferAt 0x700000000000 1⟩,
        .fread 0x100 ⟨7, bufferAt 0x700000000000 8⟩, .fgetc 0x100 ⟨EOF, bufferAt 0x700000000000 8⟩] := by
  exact read_ptr_undone ⟨rfl, nofun⟩ (by decide +kernel) (by decide +kernel)

def Breaks (cfg : StdioFlags) (calls : List StreamCall) : Prop :=
  Along (History.step cfg) History.Valid noStreams calls ∧
    ¬Along (History.step cfg) (History.Undone cfg) noStreams calls

instance {cfg : StdioFlags} {calls : List StreamCall} : Decidable (Breaks cfg calls) := by
  unfold Breaks
  infer_instance

/-- By `fgets`, by `fdopen` although `getc` is patched, by `ungetc`, for the seventeenth stream, and for a low
    pointer. -/
theorem read_ptr_not_undone :
    noStreams.Start ∧
    Breaks ⟨false, false, []⟩
      [.fopen 0x100 false ⟨0, 0, 0, 0⟩, .fgetc 0x100 ⟨97, bufferAt 0x700000000000 1⟩,
        .fgets 0x100 ⟨0, bufferAt 0x700000000000 8⟩] ∧
    Breaks ⟨true, false, []⟩
      [.fdopen 0x100 ⟨0, 0, 0, 0⟩, .fgetc 0x100 ⟨97, bufferAt 0x700000000000 1⟩] ∧
    Breaks ⟨false, true, []⟩
      [.fopen 0x100 false ⟨0, 0, 0, 0⟩, .fgetc 0x100 ⟨97, bufferAt 0x700000000000 1⟩,
        .ungetc 0x100 ⟨97, bufferAt 0x700000000000 0⟩, .fgetc 0x100 ⟨97, bufferAt 0x700000000000 1⟩] ∧
    Breaks ⟨false, false, []⟩
      ((List.range 17).map (fun i => .fopen (0x100 * BitVec.ofNat 64 (i + 1)) false ⟨0, 0, 0, 0⟩) ++
        [.fgetc 0x1100 ⟨97, bufferAt 0x700000000000 1⟩, .fgetc 0x1100 ⟨97, bufferAt 0x700000000000 2⟩]) ∧
    Breaks ⟨false, false, []⟩
      [.fopen 0x100 false ⟨0, 0, 0, 0⟩, .fgetc 0x100 ⟨97, bufferAt 0x5000 1⟩,
        .fgetc 0x100 ⟨97, bufferAt 0x5000 2⟩] :=
  ⟨⟨rfl, nofun⟩, by decide +kernel⟩

end Macify.Shim

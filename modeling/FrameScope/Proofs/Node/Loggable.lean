import FrameScope.Proofs.Node.Carriage

/-!
# Types whose values come back from a log

`Loggable`: what a text yields of a type (`Good`) has a binary form, and is read from its logged
document as what the log makes of it (`logged`). Words, texts and untyped values come back as they
are. A log is a way of documents (`Carriage.log`), so options, lists and records come back part by
part.
-/

namespace FrameScope

open Node

/-- A type whose values are read from a text, written to a log and read from it again. -/
class Loggable (α : Type) [Coded α] where
  /-- What a text yields. -/
  Good : α → Prop
  /-- What a log makes of it. -/
  logged : α → α
  good_of_read : ∀ {m node x}, m ≠ .value → node.Literal → Coded.read m node = .ok x → Good x
  writable : ∀ {x}, Good x → (Coded.write x).Writable
  read_logged : ∀ {x}, Good x → ∀ m, Coded.read m (Coded.write x).logged = .ok (logged x)

open Loggable (Good good_of_read writable read_logged)

/-! ### Scalars -/

namespace Read

theorem lt_of_word {m : Medium} {node : Node} {n : Nat} (h : word m node = .ok n) :
    n < Word.size := by
  unfold word at h
  split at h
  · rename_i i
    split at h
    · simp at h
    · split at h
      · simp only [Except.ok.injEq] at h
        omega
      · simp at h
  · unfold wordOfNumber at h
    split at h
    · split at h
      · simp only [Except.ok.injEq] at h
        omega
      · simp at h
    · simp at h
  · simp at h

theorem word_int {n : Nat} (h : n < Word.size) (m : Medium) : word m (.int n) = .ok n := by
  have hpos : ¬ (n : Int) < 0 := by omega
  have hlt : (n : Int) < Word.size := by omega
  simp [word, hpos, hlt]

end Read

theorem Node.writable_int {n : Nat} (h : n < Word.size) : (Node.int n).Writable :=
  ⟨Int.natCast_nonneg n, by exact_mod_cast h⟩

instance : Loggable Nat where
  Good n := n < Word.size
  logged n := n
  good_of_read _ _ h := Read.lt_of_word h
  writable h := Node.writable_int h
  read_logged h m := Read.word_int h m

instance : Loggable String where
  Good _ := True
  logged s := s
  good_of_read _ _ _ := trivial
  writable _ := trivial
  read_logged _ _ := rfl

instance : Loggable Json where
  Good := Json.Sound
  logged v := v
  good_of_read _ hnode h := Read.sound_of_json hnode h
  writable _ := writable_ofJson _
  read_logged h _ := Read.json_logged h

/-! ### Logs as a way of documents -/

/-- Through a log every document with a binary form arrives as its logged document. -/
def Carriage.log : Carriage where
  Arrives _ carry := carry = Node.logged
  kept := Node.logged
  Passes _ node := node.Writable
  form harrives := harrives ▸ form_logged
  word harrives hn := by
    rw [harrives, Node.logged]
    · exact Read.word_int hn _
    all_goals nofun
  num harrives hn := by
    rw [harrives]
    exact @Read.json_logged _ (.num _) hn
  buffer harrives hpasses := by
    rw [harrives]
    exact Read.buffer_logged hpasses
  arrives_kept := rfl
  passes_text := trivial
  passes_word hn := writable_int hn
  passes_seq hvs := writableItems_iff.mpr hvs
  passes_map hes := writableEntries_iff.mpr hes
  passes_mono _ h := h

variable {α : Type} [Coded α] [Loggable α]

theorem Loggable.brings {level : Nat} {x : α} (h : Good x) :
    Carriage.log.Brings level Coded.read (Coded.write x) (Loggable.logged x) where
  passes := writable h
  read harrives := by
    rw [harrives]
    exact read_logged h _

theorem Loggable.reads {m : Medium} (hm : m ≠ .value) :
    Read.Reads m Literal Coded.read (Good (α := α)) := by
  intro node x hnode hx
  exact good_of_read hm hnode hx

end FrameScope

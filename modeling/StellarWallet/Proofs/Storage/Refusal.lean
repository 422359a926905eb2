import Mathlib.Tactic.Common
import StellarWallet.Storage.Json

/-!
What writing to a storage can fail with.

Besides the refusal of the storage itself there are three faults: a name that is too long, a folder
in the place of a file, and a value without JSON form. No write changes the refusal or the reader.
-/

namespace StellarWallet

namespace Directory

lemma fault_of_write {d : Directory} {name : String} {content : List UInt8} {fault : Fault}
    (h : d.write name content = .error fault) : fault = nameTooLong ∨ fault = isFolder := by
  unfold write at h
  split at h
  · exact Or.inl (Except.error.inj h).symm
  · split at h
    · exact Or.inr (Except.error.inj h).symm
    · cases h

lemma fault_of_move {d : Directory} {source target : String} {fault : Fault}
    (h : d.move source target = .error fault) : fault = nameTooLong ∨ fault = isFolder := by
  unfold move at h
  split at h
  · cases h
  · split at h
    · exact Or.inl (Except.error.inj h).symm
    · split at h
      · exact Or.inr (Except.error.inj h).symm
      · cases h

end Directory

lemma SlotFile.fault_of_set {d : Directory} {key text : String} {fault : Fault}
    (h : (SlotFile.set d key text).1 = .error fault) :
    fault = Directory.nameTooLong ∨ fault = Directory.isFolder := by
  unfold SlotFile.set at h
  split at h
  · rename_i hw
    cases h
    exact Directory.fault_of_write hw
  · split at h
    · rename_i hm
      cases h
      exact Directory.fault_of_move hm
    · cases h

namespace Storage

@[simp] lemma refusal_set (s : Storage) (key text : String) :
    (s.set key text).2.refusal = s.refusal := by
  unfold set
  split
  · rfl
  · split <;> simp_all

@[simp] lemma refusal_writeJson (s : Storage) (key : String) (v : Value) :
    (s.writeJson key v).2.refusal = s.refusal := by
  unfold writeJson
  split
  · exact refusal_set s key _
  · rfl

@[simp] lemma reader_set (s : Storage) (key text : String) :
    (s.set key text).2.reader = s.reader := by
  unfold set
  split
  · rfl
  · split <;> rfl

@[simp] lemma reader_remove (s : Storage) (key : String) :
    (s.remove key).2.reader = s.reader := by
  unfold remove
  split
  · rfl
  · split <;> rfl

@[simp] lemma reader_writeJson (s : Storage) (key : String) (v : Value) :
    (s.writeJson key v).2.reader = s.reader := by
  unfold writeJson
  split
  · exact reader_set s key _
  · rfl

lemma fault_of_set {s : Storage} {key text : String} {fault : Fault}
    (h : (s.set key text).1 = .error fault) :
    s.refusal = some fault ∨ fault = Directory.nameTooLong ∨ fault = Directory.isFolder := by
  unfold set at h
  split at h
  · rename_i hr
    cases h
    exact Or.inl hr
  · split at h
    · cases h
    · exact Or.inr (SlotFile.fault_of_set h)

/-- What a write can fail with. -/
lemma fault_of_writeJson {s : Storage} {key : String} {v : Value} {fault : Fault}
    (h : (s.writeJson key v).1 = .error fault) :
    s.refusal = some fault ∨ fault = Directory.nameTooLong ∨ fault = Directory.isFolder ∨
      fault = notJson := by
  unfold writeJson at h
  split at h
  · rcases fault_of_set h with hr | hn | hf
    · exact Or.inl hr
    · exact Or.inr (Or.inl hn)
    · exact Or.inr (Or.inr (Or.inl hf))
  · cases h
    exact Or.inr (Or.inr (Or.inr rfl))

end Storage

end StellarWallet

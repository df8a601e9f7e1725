/-
# Names of cluster files, in full

What the rules on names come to: which texts name a cluster file (`cluster?_eq_some_iff`),
that neither putting the ending behind a name nor hiding it makes two names one
(`name_inj`, `hidden_inj`), that no hidden name is one of a cluster file
(`hidden_ne_name`) or ends as the name it hides (`getLast?_names_hidden_ne`), and which names
the file system takes (`nameError?_name`, `nameError?_hidden`).
-/

import ClusterSync.Files.ClusterFile
import ClusterSync.Proofs.Files.Names

namespace ClusterSync
namespace ClusterFile

open Files

theorem toList_name (cluster : String) :
    (name cluster).toList = cluster.toList ++ ['.', 'y', 'a', 'm', 'l'] := String.toList_append

theorem toList_hidden (file : String) :
    (hidden file).toList = '.' :: file.toList ++ ['.', 'r', 'n', 'g', 's', 'y', 'n'] := by
  rw [hidden, String.toList_append, String.toList_append]
  rfl

@[simp] theorem name_inj {a b : String} : name a = name b ↔ a = b := String.append_left_inj ending

@[simp] theorem hidden_inj {a b : String} : hidden a = hidden b ↔ a = b := by
  rw [hidden, hidden, String.append_left_inj, String.append_right_inj]

/-- The last letters differ. -/
theorem hidden_ne_name (file cluster : String) : hidden file ≠ name cluster := fun h => by
  have hl : (hidden file).toList.getLast? = (name cluster).toList.getLast? := by rw [h]
  rw [toList_hidden, toList_name, List.getLast?_append, List.getLast?_append] at hl
  simp at hl

theorem cluster?_name (cluster : String) :
    cluster? (name cluster) =
      if cluster = "" ∨ '\n' ∈ cluster.toList then none else some cluster := by
  rw [cluster?, toList_name, List.reverse_append]
  simp only [List.reverse_cons, List.reverse_nil, List.nil_append, List.cons_append]
  simp

theorem cluster?_eq_some_iff {file cluster : String} :
    cluster? file = some cluster ↔
      file = name cluster ∧ cluster ≠ "" ∧ '\n' ∉ cluster.toList := by
  constructor
  · intro h
    have hname : file = name cluster := by
      unfold cluster? at h
      split at h
      · next stem hrev =>
        split at h
        · simp at h
        · obtain rfl := Option.some.inj h
          rw [← String.toList_inj, toList_name, String.toList_ofList, ← List.reverse_inj, hrev]
          simp
      · simp at h
    rw [hname, cluster?_name] at h
    split at h
    · simp at h
    · next hn => exact ⟨hname, fun he => hn (.inl he), fun hm => hn (.inr hm)⟩
  · rintro ⟨rfl, he, hm⟩
    rw [cluster?_name, if_neg (by simp [he, hm])]

theorem isName_iff {file : String} :
    isName file = true ↔
      ∃ cluster, file = name cluster ∧ cluster ≠ "" ∧ '\n' ∉ cluster.toList := by
  simp only [isName, Option.isSome_iff_exists, cluster?_eq_some_iff]

theorem isName_name_iff {cluster : String} :
    isName (name cluster) = true ↔ cluster ≠ "" ∧ '\n' ∉ cluster.toList := by
  rw [isName_iff]
  constructor
  · rintro ⟨c, hc, h⟩
    exact name_inj.1 hc ▸ h
  · exact fun h => ⟨cluster, rfl, h⟩

theorem hidden_ne_of_isName {file other : String} (h : isName other = true) :
    hidden file ≠ other := by
  obtain ⟨cluster, rfl, -⟩ := isName_iff.1 h
  exact hidden_ne_name file cluster

theorem isPlain_iff {cluster : String} :
    isPlain cluster = true ↔
      cluster ≠ "" ∧ cluster.toList.head? ≠ some '.' ∧
        '/' ∉ cluster.toList ∧ '\\' ∉ cluster.toList := by
  have hdot : cluster.startsWith "." = true ↔ cluster.toList.head? = some '.' := by
    rw [String.startsWith_string_iff]
    cases cluster.toList with
    | nil => simp
    | cons c cs => simp [eq_comm]
  simp only [isPlain, Bool.and_eq_true, Bool.not_eq_true', ← Bool.not_eq_true,
    String.isEmpty_iff, hdot, List.contains_iff_mem, and_assoc, ne_eq]

theorem isBare_of_isName {file : String} (h : isName file = true) (hs : '/' ∉ file.toList) :
    IsBare file := by
  obtain ⟨cluster, rfl, -⟩ := isName_iff.1 h
  have hlong : 5 ≤ (name cluster).toList.length := by simp [toList_name]
  refine ⟨?_, ?_, ?_, hs⟩ <;>
  · intro he
    rw [he] at hlong
    exact absurd hlong (by decide)

/-- No path has the last name of the one that it is hidden under. -/
theorem getLast?_names_hidden_ne (file : String) :
    (names (hidden file)).getLast? ≠ (names file).getLast? := by
  have hlonger : ∀ a b : String, a ++ b ++ hiddenEnding ≠ b := fun a b h => by
    have hsize := congrArg String.utf8ByteSize h
    have hending : hiddenEnding.utf8ByteSize = 7 := rfl
    rw [String.utf8ByteSize_append, String.utf8ByteSize_append, hending] at hsize
    omega
  by_cases hslash : '/' ∈ file.toList
  · -- The ending is put behind what follows the last slash.
    obtain ⟨back, front, hsplit, hback⟩ := List.eq_append_cons_of_mem (List.mem_reverse.2 hslash)
    obtain ⟨a, b, rfl, hb⟩ : ∃ a b, file = a ++ "/" ++ b ∧ '/' ∉ b.toList := by
      refine ⟨String.ofList front.reverse, String.ofList back.reverse, ?_, ?_⟩
      · rw [← String.toList_inj, ← List.reverse_inj, hsplit]
        simp
      · simpa using hback
    have hhidden : hidden (a ++ "/" ++ b) = "." ++ a ++ "/" ++ (b ++ hiddenEnding) := by
      simp only [hidden, String.append_assoc]
    have hbehind : '/' ∉ (b ++ hiddenEnding).toList := by
      rw [String.toList_append, List.mem_append, not_or]
      exact ⟨hb, by decide⟩
    rw [hhidden, names_append_slash, names_append_slash, names_of_not_mem hb,
      names_of_not_mem hbehind, List.getLast?_concat, List.getLast?_concat]
    simpa using hlonger "" b
  · have hwhole : '/' ∉ (hidden file).toList := by simp [toList_hidden, hslash]
    rw [names_of_not_mem hslash, names_of_not_mem hwhole]
    simpa [hidden] using hlonger "." file

theorem isBare_hidden {file : String} (hs : '/' ∉ file.toList) : IsBare (hidden file) := by
  have hlong : 8 ≤ (hidden file).toList.length := by simp [toList_hidden]
  refine ⟨?_, ?_, ?_, by simp [toList_hidden, hs]⟩ <;>
  · intro he
    rw [he] at hlong
    exact absurd hlong (by decide)

theorem nameError?_name {cluster : String} :
    nameError? (name cluster) = none ↔
      '\x00' ∉ cluster.toList ∧ cluster.utf8ByteSize ≤ 250 := by
  have hsize : (name cluster).utf8ByteSize = cluster.utf8ByteSize + 5 := String.utf8ByteSize_append
  rw [nameError?_eq_none_iff, toList_name, hsize, maxName]
  simp

theorem nameError?_hidden {file : String} :
    nameError? (hidden file) = none ↔ '\x00' ∉ file.toList ∧ file.utf8ByteSize ≤ 247 := by
  have hsize : (hidden file).utf8ByteSize = 1 + file.utf8ByteSize + 7 := by
    rw [hidden, String.utf8ByteSize_append, String.utf8ByteSize_append]
    rfl
  rw [nameError?_eq_none_iff, toList_hidden, hsize, maxName]
  simp
  omega

end ClusterFile
end ClusterSync

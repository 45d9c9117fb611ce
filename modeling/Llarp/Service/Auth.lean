import Mathlib.Data.List.DropRight

/-!
# Tokens in files

A client is let in by a token that stands on a line of a file. A line is split at the characters
that start a comment, and empty pieces at its begin are left out: what follows such a character at
the begin of a line is taken for the token, and a line without anything else has no first piece at
all. Whether a piece is empty is tested before it is trimmed.
-/

namespace Llarp

open List

abbrev Text := List UInt8

/-- Space, tab, line feed, carriage return, form feed and vertical tab. -/
def whitespace : Text := [32, 9, 10, 13, 12, 11]

def trimWhitespace (str : Text) : Text :=
  (str.dropWhile whitespace.contains).rdropWhile whitespace.contains

/-- The loop of `split_any`, with the pieces so far. Behind a delimiter, the others next to it are
skipped too. -/
def splitAnyLoop (isDelim : UInt8 → Bool) (trim : Bool) (str : Text) (results : List Text) :
    List Text :=
  match found : str.dropWhile (!isDelim ·) with
  | [] => if !trim || !str.isEmpty then results ++ [str] else results.rdropWhile List.isEmpty
  | _ :: rest =>
    let piece := str.takeWhile (!isDelim ·)
    splitAnyLoop isDelim trim (rest.dropWhile isDelim)
      (if !trim || !results.isEmpty || !piece.isEmpty then results ++ [piece] else results)
termination_by str.length
decreasing_by
  have short := (List.dropWhile_suffix (l := rest) isDelim).length_le
  have less := (List.dropWhile_suffix (l := str) (!isDelim ·)).length_le
  rw [found, List.length_cons] at less
  omega

/-- `split_any` with at least one delimiter. -/
def splitAny (str delims : Text) (trim : Bool) : List Text :=
  splitAnyLoop delims.contains trim str []

/-- The text behind delimiters at the begin. -/
def firstText (isDelim : UInt8 → Bool) (str : Text) : Text :=
  (str.dropWhile isDelim).takeWhile (!isDelim ·)

variable {isDelim : UInt8 → Bool} {str first : Text}

/-- A first piece stays. -/
theorem head?_splitAnyLoop {trim : Bool} {results : List Text} (text : first ≠ [])
    (isFirst : results.head? = some first) :
    (splitAnyLoop isDelim trim str results).head? = some first := by
  fun_induction splitAnyLoop isDelim trim str results with
  | case1 str results found more => rw [head?_append, isFirst, Option.some_or]
  | case2 str results found done =>
    obtain ⟨dropped, split⟩ := rdropWhile_prefix isEmpty results
    cases kept : results.rdropWhile isEmpty with
    | nil =>
      have empty := rdropWhile_eq_nil_iff.mp kept first (mem_of_mem_head? isFirst)
      exact absurd (isEmpty_iff.mp empty) text
    | cons piece pieces =>
      rw [kept] at split
      rwa [← split] at isFirst
  | case3 str results c rest found piece ih =>
    refine ih ?_
    split_ifs
    · rw [head?_append, isFirst, Option.some_or]
    · exact isFirst

/-- At a delimiter, nothing is put out yet. -/
theorem splitAnyLoop_of_delimiter {c : UInt8} (starts : isDelim c = true) :
    splitAnyLoop isDelim true (c :: str) [] =
      splitAnyLoop isDelim true (str.dropWhile isDelim) [] := by
  have stops : (c :: str).dropWhile (!isDelim ·) = c :: str :=
    dropWhile_cons_of_neg (by rw [starts]; nofun)
  have nothing : (c :: str).takeWhile (!isDelim ·) = [] :=
    takeWhile_cons_of_neg (by rw [starts]; nofun)
  rw [splitAnyLoop]
  split
  · rename_i found
    exact absurd (stops.symm.trans found) nofun
  · rename_i found
    obtain ⟨rfl, rfl⟩ := cons.inj (stops.symm.trans found)
    rw [nothing]
    rfl

theorem head?_splitAnyLoop_of_text (text : str.dropWhile isDelim = str) :
    (splitAnyLoop isDelim true str []).head? =
      if firstText isDelim str = [] then none else some (firstText isDelim str) := by
  rw [firstText, text, splitAnyLoop]
  split
  · rename_i found
    rw [takeWhile_eq_self_iff.mpr (dropWhile_eq_nil_iff.mp found)]
    cases str with
    | nil => rfl
    | cons c str => rfl
  · rename_i c rest found
    cases str with
    | nil => cases found
    | cons d str =>
      have plain : isDelim d = false := by
        simpa using dropWhile_eq_self_iff.mp text (Nat.succ_pos _)
      have piece : (d :: str).takeWhile (!isDelim ·) ≠ [] := by simp [plain]
      rw [if_neg piece]
      exact head?_splitAnyLoop piece (by simp [plain])

theorem head?_splitAnyLoop_nil (isDelim : UInt8 → Bool) (str : Text) :
    (splitAnyLoop isDelim true str []).head? =
      if firstText isDelim str = [] then none else some (firstText isDelim str) := by
  cases str with
  | nil => exact head?_splitAnyLoop_of_text rfl
  | cons c str =>
    cases starts : isDelim c with
    | true =>
      rw [splitAnyLoop_of_delimiter starts,
        head?_splitAnyLoop_of_text (dropWhile_idempotent _ _), firstText,
        dropWhile_idempotent, firstText, dropWhile_cons_of_pos starts]
    | false =>
      exact head?_splitAnyLoop_of_text (dropWhile_cons_of_neg (by rw [starts]; nofun))

inductive AuthFileType where
  | plain
  | hashes

inductive AuthResultCode where
  | accepted
  | rejected
  deriving DecidableEq

structure AuthResult where
  code : AuthResultCode
  reason : String

/-- A policy with the lines of its files. -/
structure FileAuthPolicy where
  files : List (List Text)
  type : AuthFileType
  checkPasswdHash : Text → Text → Bool

namespace FileAuthPolicy

variable (policy : FileAuthPolicy)

def checkPasswd (hash challenge : Text) : Bool :=
  match policy.type with
  | .plain => hash == challenge
  | .hashes => policy.checkPasswdHash hash challenge

/-- The characters that start a comment, `#` and `;`. -/
def commentStarts : Text := [35, 59]

/-- The loops of `CheckFiles` over the lines of the files. The first of no parts is memory that does
not belong to them. -/
def checkLines (token : Text) : List Text → Option AuthResult
  | [] => some ⟨.rejected, "rejected by whitelist"⟩
  | line :: lines => do
    let part ← (splitAny line commentStarts true).head?
    if !part.isEmpty && policy.checkPasswd (trimWhitespace part) token then
      return ⟨.accepted, "accepted by whitelist"⟩
    checkLines token lines

def checkFiles (token : Text) : Option AuthResult := policy.checkLines token policy.files.flatten

/-- The token is not empty and stands before the comment of a line. -/
def Listed (token : Text) : Prop :=
  token ≠ [] ∧ ∃ line ∈ policy.files.flatten,
    trimWhitespace (line.takeWhile (!commentStarts.contains ·)) = token

/-- The check comes to an end and accepts exactly the tokens of the files. -/
def ChecksRight (token : Text) : Prop :=
  ∃ result, policy.checkFiles token = some result ∧
    (result.code = .accepted ↔ policy.Listed token)

/-- The check does not get beyond this line. -/
def stops (token line : Text) : Bool :=
  firstText commentStarts.contains line = [] ∨
    trimWhitespace (firstText commentStarts.contains line) = token

variable {policy : FileAuthPolicy} {token : Text} (plain : policy.type = .plain)

include plain

theorem checkLines_eq (lines : List Text) : policy.checkLines token lines =
    match lines.find? (stops token) with
    | none => some ⟨.rejected, "rejected by whitelist"⟩
    | some line => if firstText commentStarts.contains line = [] then none
      else some ⟨.accepted, "accepted by whitelist"⟩ := by
  induction lines with
  | nil => rfl
  | cons line lines ih =>
    rw [checkLines, splitAny, head?_splitAnyLoop_nil, ih, find?_cons]
    by_cases nothing : firstText commentStarts.contains line = []
    · have stop : stops token line = true := decide_eq_true (.inl nothing)
      rw [if_pos nothing, stop]
      exact (if_pos nothing).symm
    · by_cases same : trimWhitespace (firstText commentStarts.contains line) = token
      · have stop : stops token line = true := decide_eq_true (.inr same)
        rw [if_neg nothing, stop]
        simp [nothing, same, checkPasswd, plain]
      · have goes : stops token line = false := decide_eq_false (by simp [nothing, same])
        rw [if_neg nothing, goes]
        simp [same, checkPasswd, plain]

end FileAuthPolicy

namespace FileAuthPolicy

/-- A token before a comment is the first text of its line. -/
theorem exists_stop_of_listed {policy : FileAuthPolicy} {token : Text}
    (listed : policy.Listed token) : ∃ line ∈ policy.files.flatten, stops token line = true := by
  obtain ⟨text, line, member, same⟩ := listed
  refine ⟨line, member, decide_eq_true (.inr ?_)⟩
  cases line with
  | nil => exact same
  | cons c line =>
    cases starts : commentStarts.contains c with
    | true =>
      rw [takeWhile_cons_of_neg (by rw [starts]; nofun)] at same
      exact absurd same.symm text
    | false => rwa [firstText, dropWhile_cons_of_neg (by rw [starts]; nofun)]

theorem checksRight_of_find {files : List (List Text)} {hashes : Text → Text → Bool}
    {token line : Text} (found : files.flatten.find? (stops token) = some line) :
    ChecksRight ⟨files, .plain, hashes⟩ token ↔
      firstText commentStarts.contains line ≠ [] ∧ Listed ⟨files, .plain, hashes⟩ token := by
  rw [ChecksRight, checkFiles, checkLines_eq rfl, found]
  dsimp only
  split_ifs with nothing
  · refine iff_of_false ?_ fun right => right.1 nothing
    rintro ⟨_, ends, -⟩
    cases ends
  · rw [and_iff_right nothing]
    constructor
    · rintro ⟨_, ends, right⟩
      cases ends
      exact right.mp rfl
    · exact fun listed => ⟨_, rfl, iff_of_true rfl listed⟩

/-- The check is right exactly if the first line without text, or with the token as its first text,
is not one without text, and the token stands before the comment of a line then. -/
theorem checksRight_iff (files : List (List Text)) (hashes : Text → Text → Bool) (token : Text) :
    ChecksRight ⟨files, .plain, hashes⟩ token ↔
      ∀ line, files.flatten.find? (stops token) = some line →
        firstText commentStarts.contains line ≠ [] ∧ Listed ⟨files, .plain, hashes⟩ token := by
  cases found : files.flatten.find? (stops token) with
  | none =>
    rw [ChecksRight, checkFiles, checkLines_eq rfl, found]
    refine iff_of_true ⟨_, rfl, iff_of_false nofun fun listed => ?_⟩ nofun
    obtain ⟨line, member, stop⟩ := exists_stop_of_listed listed
    exact find?_eq_none.mp found line member stop
  | some line =>
    rw [checksRight_of_find found]
    exact ⟨fun right line' same => Option.some.inj same ▸ right, fun right => right line rfl⟩

/-- A token in a comment is accepted, and so is an empty one for a line of spaces. An empty line has
no first piece. -/
theorem comment_and_blank_lines_checked_wrong :
    ¬ChecksRight ⟨[[[35, 120]]], .plain, fun _ _ => false⟩ [120] ∧
      ¬ChecksRight ⟨[[[32]]], .plain, fun _ _ => false⟩ [] ∧
      ¬ChecksRight ⟨[[[]]], .plain, fun _ _ => false⟩ [120] := by
  rw [checksRight_of_find rfl, checksRight_of_find rfl, checksRight_of_find rfl]
  unfold Listed
  decide

end FileAuthPolicy

end Llarp

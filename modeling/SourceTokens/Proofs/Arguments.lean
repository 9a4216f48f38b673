/-
# `SourceTokens.Proofs.Arguments` — what becomes of the arguments

The files of a run are arguments, as they were given and in their order
(`CommandLine.files_sublist`).  What is shown of one argument, `CommandLine.Follows`, is
that it adds at most itself; the reading of all arguments adds these up.
-/
import SourceTokens.CommandLine
import SourceTokens.Proofs.Except

namespace SourceTokens.CommandLine

/-- Where the reading may stand after one argument: it has added itself to the files, or
nothing.  What ends the reading is no run. -/
inductive Follows (o : Options) (arg : String) : Progress → Prop
  | file {o' : Options} (h : o'.files = o.files ++ [arg]) : Follows o arg (.reading o')
  | option {o' : Options} (h : o'.files = o.files) : Follows o arg (.reading o')
  | awaiting {o' : Options} {s : Setting} (h : o'.files = o.files) :
      Follows o arg (.awaiting o' s)
  | help : Follows o arg (.answered .help)
  | version : Follows o arg (.answered .version)

variable {o o' : Options} {arg : String} {args : List String} {p : Progress}

theorem Follows.of_files_eq (h : Follows o' arg p) (hfiles : o'.files = o.files) :
    Follows o arg p := by
  cases h with
  | file h => exact .file (h.trans (by rw [hfiles]))
  | option h => exact .option (h.trans hfiles)
  | awaiting h => exact .awaiting (h.trans hfiles)
  | help => exact .help
  | version => exact .version

/-! ## One argument -/

theorem files_of_set {s : Setting} {value : String} (h : set o s value = .ok o') :
    o'.files = o.files := by
  cases s with
  | format | maxFileSize | config =>
    simp only [set] at h
    repeat' split at h
    all_goals cases h
    all_goals rfl

theorem follows_of_set {s : Setting} {value : String}
    (h : (do return Progress.reading (← set o s value)) = .ok p) : Follows o arg p := by
  obtain ⟨o', hset, h⟩ := bind_eq_ok_iff.mp h
  cases h
  exact .option (files_of_set hset)

theorem follows_of_turnOn {s : Switch} (h : turnOn o s = .ok p) : Follows o arg p := by
  cases s with
  | time =>
    rw [turnOn] at h
    split at h
    · cases h
    · cases h
      exact .option rfl
  | help => cases h; exact .help
  | version => cases h; exact .version

theorem follows_of_takeLong {name : String} {value : Option String}
    (h : takeLong o name value = .ok p) : Follows o arg p := by
  rw [takeLong.eq_def] at h
  split at h
  · cases h
  · exact follows_of_turnOn h
  · cases h
  · cases h
    exact .awaiting rfl
  · exact follows_of_set h

/-- A switch that does not end the reading leaves the files alone. -/
theorem files_of_turnOn {s : Switch} (h : turnOn o s = .ok (.reading o')) :
    o'.files = o.files := by
  cases s with
  | time =>
    rw [turnOn] at h
    split at h <;> cases h
    rfl
  | help => cases h
  | version => cases h

theorem follows_of_takeLetters {cs : List Char} (h : takeLetters o cs = .ok p) :
    Follows o arg p := by
  induction cs generalizing o with
  | nil => cases h; exact .option rfl
  | cons c cs ih =>
    rw [takeLetters.eq_def] at h
    simp only at h
    split at h
    case h_1 => cases h
    case h_2 => cases h; exact .awaiting rfl
    case h_3 => exact follows_of_set h
    case h_4 => exact follows_of_set h
    case h_5 =>
      obtain ⟨q, hq, h⟩ := bind_eq_ok_iff.mp h
      -- only a switch that does not end the reading is followed by more letters
      split at h
      case h_1 => exact (ih h).of_files_eq (files_of_turnOn hq)
      case h_2 =>
        cases h
        exact follows_of_turnOn hq

theorem files_of_addFile {file : String} (h : addFile o file = .ok o') :
    o'.files = o.files ++ [file] := by
  rw [addFile] at h
  split at h <;> cases h
  rfl

theorem follows_of_take (h : take o arg = .ok p) : Follows o arg p := by
  rw [take.eq_def] at h
  split at h
  case h_1 =>
    simp only at h
    split at h
    · exact follows_of_takeLong h
    · exact follows_of_takeLong h
  case h_2 => exact follows_of_takeLetters h
  case h_3 =>
    obtain ⟨o', hadd, h⟩ := bind_eq_ok_iff.mp h
    cases h
    exact .file (files_of_addFile hadd)

/-! ## All arguments -/

theorem files_of_foldlM_addFile (h : args.foldlM addFile o = .ok o') :
    o'.files = o.files ++ args := by
  induction args generalizing o with
  | nil => cases h; simp
  | cons arg args ih =>
    rw [List.foldlM_cons] at h
    obtain ⟨o₁, hadd, h⟩ := bind_eq_ok_iff.mp h
    rw [ih h, files_of_addFile hadd, List.append_assoc, List.singleton_append]

theorem finish_eq_ok (h : finish o = .ok (.run o')) : o' = o := by
  rw [finish] at h
  split at h <;> cases h
  rfl

/-- What is read from the arguments that are left adds some of them, in their order. -/
theorem files_of_readFrom {o o' : Options} {args : List String}
    (h : readFrom o args = .ok (.run o')) :
    ∃ added : List String, added.Sublist args ∧ o'.files = o.files ++ added := by
  rw [readFrom.eq_def] at h
  split at h
  case h_1 => exact ⟨[], List.nil_sublist _, by simp [finish_eq_ok h]⟩
  case h_2 arg args =>
    split at h
    · obtain ⟨o₁, hadd, h⟩ := bind_eq_ok_iff.mp h
      rw [finish_eq_ok h]
      exact ⟨args, List.sublist_cons_self _ _, files_of_foldlM_addFile hadd⟩
    · obtain ⟨p, htake, h⟩ := bind_eq_ok_iff.mp h
      have hfollows : Follows o arg p := follows_of_take htake
      split at h
      case h_1 o₁ =>
        obtain ⟨added, hsub, hfiles⟩ := files_of_readFrom h
        cases hfollows with
        | file harg =>
          exact ⟨arg :: added, hsub.cons_cons arg, by rw [hfiles, harg]; simp⟩
        | option hsame =>
          exact ⟨added, hsub.cons arg, by rw [hfiles, hsame]⟩
      case h_2 =>
        cases h
        cases hfollows
      case h_3 o₁ s =>
        cases hfollows with
        | awaiting hsame =>
          split at h
          case h_1 => cases h
          case h_2 _ value args _ =>
            split at h
            · cases h
            · -- the value of the setting is an argument that adds no file
              obtain ⟨o₂, hset, h⟩ := bind_eq_ok_iff.mp h
              obtain ⟨added, hsub, hfiles⟩ := files_of_readFrom h
              exact ⟨added, (hsub.cons value).cons arg,
                by rw [hfiles, files_of_set hset, hsame]⟩
termination_by args.length

/-- The files of a run are arguments, in the order in which they were given. -/
theorem files_sublist (h : read args = .ok (.run o)) : o.files.Sublist args := by
  obtain ⟨added, hsub, hfiles⟩ := files_of_readFrom h
  simpa [hfiles] using hsub

end SourceTokens.CommandLine

import TypeBridge.Config.Target
import TypeBridge.Proofs.Text.Cutting

/-!
# Triples in normal form

A target that was read from a triple is in normal form (`isNormal_of_parse`): the newer name of its
architecture, an operating system without version, no empty environment, and dashes in the
environment alone. Such a target is read back from its own text (`parse_render`), so that reading
normalises once and for all.
-/

namespace TypeBridge.Target

variable {target : Target} {text arch : String} {os : List Char} {c : Char}

/-! ## Architectures and operating systems -/

theorem dash_notMem_normalArch (clean : '-' ∉ arch.toList) : '-' ∉ (normalArch arch).toList := by
  unfold normalArch
  split
  · decide
  · exact clean

/-- No architecture goes by its other name in the end. -/
theorem normalArch_ne (arch : String) : normalArch arch ≠ "arm64" := by
  unfold normalArch
  split
  · decide
  · assumption

/-- The name of an operating system in which nothing starts a version, unless the whole name looks
like one. -/
def Unversioned (os : List Char) : Prop :=
  (∀ c ∈ os, startsVersion c = false) ∨
    ∃ first rest, os = first :: rest ∧ startsVersion first = true

/-- What is left of an operating system was in it. -/
theorem mem_of_mem_withoutVersion (member : c ∈ withoutVersion os) : c ∈ os := by
  unfold withoutVersion at member
  dsimp only at member
  split at member
  · exact member
  · exact (List.takeWhile_prefix _).subset member

/-- Removing the version leaves none. -/
theorem unversioned_withoutVersion (os : List Char) : Unversioned (withoutVersion os) := by
  unfold withoutVersion
  dsimp only
  split
  · rename_i none
    cases os with
    | nil => exact .inl nofun
    | cons first rest =>
        refine .inr ⟨first, rest, rfl, ?_⟩
        by_contra plain
        simp [plain] at none
  · refine .inl fun c member => ?_
    simpa using List.mem_takeWhile_imp member

/-- Where there is no version, none is removed. -/
theorem withoutVersion_of_unversioned (unversioned : Unversioned os) : withoutVersion os = os := by
  unfold withoutVersion
  dsimp only
  rcases unversioned with plain | ⟨first, rest, rfl, starts⟩
  · have whole : os.takeWhile (fun c => !startsVersion c) = os := by
      rw [List.takeWhile_eq_self_iff]
      intro c member
      rw [plain c member]
      rfl
    rw [whole]
    split <;> rfl
  · rw [List.takeWhile_cons, starts]
    rfl

/-! ## Environments -/

/-- The parts behind the third dash that spell an environment. -/
def envParts (env : Option String) : List (List Char) :=
  match env with
  | none => []
  | some name => Text.pieces (fun c => c = '-') name.toList

theorem dash_notMem_envParts {env : Option String} {part : List Char}
    (member : part ∈ envParts env) : '-' ∉ part := by
  cases env with
  | none => cases member
  | some name => exact Text.mark_notMem_of_mem_pieces member

/-- An environment is put together again from its parts. -/
theorem joinEnv_envParts {env : Option String} (filled : env ≠ some "") :
    joinEnv (envParts env) = env := by
  cases env with
  | none => rfl
  | some name =>
      have solid : name.toList ≠ [] := fun none =>
        filled (congrArg some (String.toList_eq_nil_iff.mp none))
      simp only [joinEnv, envParts, Text.intercalate_pieces, List.isEmpty_iff, if_neg solid,
        String.ofList_toList]

/-- No parts spell an environment that is empty. -/
theorem joinEnv_ne_empty (parts : List (List Char)) : joinEnv parts ≠ some "" := by
  unfold joinEnv
  dsimp only
  split
  · nofun
  · rename_i solid
    intro same
    apply solid
    rw [List.isEmpty_iff, ← String.ofList_eq_empty_iff]
    exact Option.some.inj same

/-! ## Reading and writing -/

/-- How a target looks that was read from a triple. -/
structure IsNormal (target : Target) : Prop where
  arch : '-' ∉ target.arch.toList
  current : target.arch ≠ "arm64"
  vendor : '-' ∉ target.vendor.toList
  os : '-' ∉ target.os.toList
  unversioned : Unversioned target.os.toList
  env : target.env ≠ some ""

/-- A target is written as its parts with dashes between them. -/
theorem toList_render (target : Target) :
    target.render.toList = List.intercalate ['-']
      (target.arch.toList :: target.vendor.toList :: target.os.toList :: envParts target.env) := by
  unfold render envParts
  cases target.env with
  | none => simp [List.intercalate_cons_cons]
  | some name =>
      simp only [List.intercalate_cons_cons]
      rw [List.intercalate_cons_of_ne_nil (Text.pieces_ne_nil _ _), Text.intercalate_pieces]
      simp

/-- The text of a target in normal form is read as that target. -/
theorem parse_render (normal : target.IsNormal) : parse target.render = .ok target := by
  have clean : ∀ part ∈
      target.arch.toList :: target.vendor.toList :: target.os.toList :: envParts target.env,
      '-' ∉ part := by
    simp only [List.forall_mem_cons]
    exact ⟨normal.arch, normal.vendor, normal.os, fun _ => dash_notMem_envParts⟩
  unfold parse
  rw [toList_render, Text.pieces_intercalate (by simp) clean]
  simp only [withoutVersion_of_unversioned normal.unversioned, joinEnv_envParts normal.env,
    String.ofList_toList, normalArch, if_neg normal.current]

/-- Reading a triple brings it into normal form. -/
theorem isNormal_of_parse (read : parse text = .ok target) : target.IsNormal := by
  unfold parse at read
  split at read
  · rename_i arch vendor os env cut
    have clean : ∀ part ∈ arch :: vendor :: os :: env, '-' ∉ part := fun part member =>
      Text.mark_notMem_of_mem_pieces (cut ▸ member)
    simp only [List.forall_mem_cons] at clean
    obtain ⟨archClean, vendorClean, osClean, -⟩ := clean
    cases read
    refine
      { arch := ?_
        current := ?_
        vendor := by rwa [String.toList_ofList]
        os := ?_
        unversioned := ?_
        env := joinEnv_ne_empty env }
    · exact dash_notMem_normalArch (by rwa [String.toList_ofList])
    · exact normalArch_ne _
    · rw [String.toList_ofList]
      exact fun member => osClean (mem_of_mem_withoutVersion member)
    · rw [String.toList_ofList]
      exact unversioned_withoutVersion os
  · cases read

/-- A text is a triple if it holds two dashes. -/
theorem exists_parse_iff (text : String) :
    (∃ target, parse text = .ok target) ↔ 2 ≤ text.toList.count '-' := by
  have length := Text.length_pieces (fun c => c = '-') text.toList
  have count : text.toList.countP (fun c => c = '-') = text.toList.count '-' := rfl
  unfold parse
  split
  · rename_i arch vendor os env cut
    rw [cut, List.length_cons, List.length_cons, List.length_cons, count] at length
    exact ⟨fun _ => by omega, fun _ => ⟨_, rfl⟩⟩
  · rename_i short
    refine ⟨nofun, fun enough => ?_⟩
    match cut : Text.pieces (fun c => c = '-') text.toList with
    | arch :: vendor :: os :: env => exact absurd cut (short arch vendor os env)
    | [] | [_] | [_, _] =>
        rw [cut, count] at length
        simp only [List.length_cons, List.length_nil] at length
        omega

/-- Every text with two dashes in it is a triple, and every triple is read into normal form: reading
the text of the target that was read gives that target again. -/
theorem parse_settles (text : String) :
    (2 ≤ text.toList.count '-' → ∃ target, parse text = .ok target) ∧
    ∀ target, parse text = .ok target →
      target.IsNormal ∧ parse target.render = .ok target :=
  ⟨(exists_parse_iff text).mpr, fun _ read =>
    ⟨isNormal_of_parse read, parse_render (isNormal_of_parse read)⟩⟩

/-- A triple with an older name, a version, and an environment that starts and ends with a dash. -/
def versionedTriple : String := "arm64-apple-darwin23.1.0--beta-"

/-- The target that it names. -/
def versionedTarget : Target := ⟨"aarch64", "apple", "darwin", some "-beta-"⟩

/-- A triple with a version and the dashes of its environment settles. -/
theorem parse_settles_versionedTriple : 2 ≤ versionedTriple.toList.count '-' ∧
    (∃ target, parse versionedTriple = .ok target) ∧
    parse versionedTriple = .ok versionedTarget ∧
    parse versionedTarget.render = .ok versionedTarget := by
  have dashes : 2 ≤ versionedTriple.toList.count '-' := by decide
  have read : parse versionedTriple = .ok versionedTarget := by decide +kernel
  obtain ⟨accepts, settles⟩ := parse_settles versionedTriple
  exact ⟨dashes, accepts dashes, read, (settles versionedTarget read).2⟩

end TypeBridge.Target

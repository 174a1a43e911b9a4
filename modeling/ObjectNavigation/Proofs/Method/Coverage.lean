import Mathlib.Logic.Basic
import ObjectNavigation.Permission

/-!
What a permission covers. A name that is no wildcard stands for itself. A wildcard stands for the
plain names below its path: those whose segments go on where the segments of the path end, and do
not stop after the dot. A permission implies another exactly if it covers all that the other covers
(`Permission.implies_eq_inclusion`), although what is compared are characters and lengths.
-/

namespace ObjectNavigation
namespace Permission

/-- What stands between the dots of a name. -/
def segments (name : String) : List (List Char) :=
  name.toList.splitOn '.'

def IsPlain (name : String) : Prop :=
  name ≠ "*" ∧ ∀ path, name ≠ path ++ ".*"

/-- The names that a permission grants. -/
inductive Covers (permission : Permission) : String → Prop where
  | itself (plain : IsPlain permission.name) : Covers permission permission.name
  | any {name : String} (star : permission.name = "*") (plain : IsPlain name) (hne : name ≠ "") :
      Covers permission name
  | below {path name : String} {rest : List (List Char)} (wildcard : permission.name = path ++ ".*")
      (plain : IsPlain name) (hname : segments name = segments path ++ rest) (hrest : rest ≠ [])
      (hstop : rest ≠ [[]]) : Covers permission name

/-! ### Names below a path -/

theorem intercalate_append {α : Type} {separator : List α} {front back : List (List α)}
    (hfront : front ≠ []) (hback : back ≠ []) :
    separator.intercalate (front ++ back) =
      separator.intercalate front ++ separator ++ separator.intercalate back := by
  induction front with
  | nil => exact absurd rfl hfront
  | cons first rest ih =>
    cases rest with
    | nil => rw [List.singleton_append, List.intercalate_cons_of_ne_nil hback,
        List.intercalate_singleton]
    | cons second rest =>
      have hrest := ih (List.cons_ne_nil second rest)
      rw [List.cons_append] at hrest
      rw [List.cons_append, List.cons_append, List.intercalate_cons_cons, hrest,
        List.intercalate_cons_cons]
      simp only [List.append_assoc]

theorem exists_segments_iff {path name : String} :
    (∃ rest, segments name = segments path ++ rest ∧ rest ≠ [] ∧ rest ≠ [[]]) ↔
      ∃ tail, name.toList = path.toList ++ '.' :: tail ∧ tail ≠ [] := by
  constructor
  · rintro ⟨rest, hname, hrest, hstop⟩
    have hjoin := congrArg (List.intercalate ['.']) hname
    rw [segments, segments, intercalate_append (List.splitOn_ne_nil _ _) hrest,
      List.intercalate_splitOn, List.intercalate_splitOn, List.append_assoc,
      List.singleton_append] at hjoin
    refine ⟨_, hjoin, fun hempty => ?_⟩
    -- The segments after the path would be the one segment of no characters.
    rw [hempty] at hjoin
    have hsplit := congrArg (List.splitOn '.') hjoin
    rw [List.splitOn_append_cons_self, List.splitOn_nil] at hsplit
    exact hstop (List.append_cancel_left (hname.symm.trans hsplit))
  · rintro ⟨tail, hname, htail⟩
    have hjoin : ['.'].intercalate (tail.splitOn '.') = tail := List.intercalate_splitOn '.'
    refine ⟨tail.splitOn '.', ?_, List.splitOn_ne_nil _ _, fun hempty => htail ?_⟩
    · rw [segments, hname, List.splitOn_append_cons_self]
      rfl
    · rw [← hjoin, hempty]
      rfl

/-! ### Wildcards -/

theorem isWildcard_iff {permission : Permission} :
    permission.isWildcard = true ↔
      permission.name = "*" ∨ ∃ path, permission.name = path ++ ".*" := by
  have hsuffix : (∃ path, permission.name = path ++ ".*") ↔
      ['.', '*'] <:+ permission.name.toList := by
    constructor
    · rintro ⟨path, hpath⟩
      rw [hpath, String.toList_append]
      exact List.suffix_append _ _
    · rintro ⟨path, hpath⟩
      refine ⟨String.ofList path, String.toList_inj.1 ?_⟩
      rw [String.toList_append, String.toList_ofList, ← hpath]
      rfl
  rw [isWildcard, Bool.or_eq_true, beq_iff_eq, List.isSuffixOf_iff_suffix, ← hsuffix]

theorem isPlain_iff {permission : Permission} :
    IsPlain permission.name ↔ permission.isWildcard = false := by
  rw [← Bool.not_eq_true, isWildcard_iff, not_or, not_exists]
  rfl

theorem stem_of_star {permission : Permission} (h : permission.name = "*") :
    permission.stem = [] := by
  rw [stem, h]
  rfl

theorem stem_of_below {permission : Permission} {path : String}
    (h : permission.name = path ++ ".*") : permission.stem = path.toList ++ ['.'] := by
  have hlist : permission.name.toList = path.toList ++ ['.'] ++ ['*'] := by
    rw [h, String.toList_append, List.append_assoc]
    rfl
  rw [stem, hlist]
  simp

/-- A wildcard covers the plain names that are longer than its stem and begin with it. -/
theorem covers_wildcard_iff {permission : Permission} (h : permission.isWildcard = true)
    {name : String} :
    permission.Covers name ↔ IsPlain name ∧ ∃ tail, name.toList = permission.stem ++ tail ∧
      tail ≠ [] := by
  constructor
  · intro hcovers
    cases hcovers with
    | itself plain =>
      rw [isPlain_iff, h] at plain
      cases plain
    | any star plain hne =>
      refine ⟨plain, name.toList, ?_, fun hempty => hne (String.toList_inj.1 hempty)⟩
      rw [stem_of_star star, List.nil_append]
    | below wildcard plain hname hrest hstop =>
      obtain ⟨tail, htail, hne⟩ := exists_segments_iff.1 ⟨_, hname, hrest, hstop⟩
      refine ⟨plain, tail, ?_, hne⟩
      rw [stem_of_below wildcard, htail, List.append_assoc, List.singleton_append]
  · rintro ⟨plain, tail, htail, hne⟩
    rcases isWildcard_iff.1 h with star | ⟨path, hpath⟩
    · refine .any star plain fun hempty => hne ?_
      rw [stem_of_star star, hempty] at htail
      exact htail.symm
    · rw [stem_of_below hpath, List.append_assoc, List.singleton_append] at htail
      obtain ⟨rest, hname, hrest, hstop⟩ := exists_segments_iff.2 ⟨tail, htail, hne⟩
      exact .below hpath plain hname hrest hstop

theorem covers_plain_iff {permission : Permission} (h : permission.isWildcard = false)
    {name : String} : permission.Covers name ↔ name = permission.name := by
  have plain := isPlain_iff.2 h
  constructor
  · intro hcovers
    cases hcovers with
    | itself => rfl
    | any star => exact absurd star plain.1
    | below wildcard => exact absurd wildcard (plain.2 _)
  · rintro rfl
    exact .itself plain

theorem covers_extended {permission : Permission} (h : permission.isWildcard = true) {letter : Char}
    (hletter : letter ≠ '*') : permission.Covers (String.ofList (permission.stem ++ [letter])) := by
  refine (covers_wildcard_iff h).2 ⟨⟨fun hstar => ?_, fun path hpath => ?_⟩, [letter],
    String.toList_ofList, List.cons_ne_nil _ _⟩
  · have hlast := congrArg (fun name => name.toList.getLast?) hstar
    simp only [String.toList_ofList, List.getLast?_concat] at hlast
    exact hletter (Option.some.inj hlast)
  · have hlast := congrArg (fun name => name.toList.getLast?) hpath
    have hend : (path ++ ".*").toList = path.toList ++ ['.'] ++ ['*'] := by
      rw [String.toList_append, List.append_assoc]
      rfl
    simp only [hend, String.toList_ofList, List.getLast?_concat] at hlast
    exact hletter (Option.some.inj hlast)

/-! ### Implication -/

theorem stem_prefix_iff {granted wanted : Permission} (hgranted : granted.isWildcard = true)
    (hwanted : wanted.isWildcard = true) :
    granted.stem <+: wanted.stem ↔ ∀ name, wanted.Covers name → granted.Covers name := by
  constructor
  · rintro ⟨middle, hmiddle⟩ name hname
    obtain ⟨plain, tail, htail, hne⟩ := (covers_wildcard_iff hwanted).1 hname
    refine (covers_wildcard_iff hgranted).2 ⟨plain, middle ++ tail, ?_, by simp [hne]⟩
    rw [htail, ← hmiddle, List.append_assoc]
  · intro hincluded
    have hletter : 'a' ≠ '*' := by decide
    obtain ⟨_, tail, htail, hne⟩ :=
      (covers_wildcard_iff hgranted).1 (hincluded _ (covers_extended hwanted hletter))
    rw [String.toList_ofList] at htail
    rcases List.prefix_concat_iff.1 ⟨tail, htail.symm⟩ with hwhole | hprefix
    · rw [hwhole, List.append_assoc] at htail
      have hlength := congrArg List.length htail
      have hpos := List.length_pos_iff.2 hne
      simp only [List.length_append, List.length_cons, List.length_nil] at hlength
      omega
    · exact hprefix

theorem implies_iff_covers {granted wanted : Permission} :
    granted.implies wanted = true ↔ ∀ name, wanted.Covers name → granted.Covers name := by
  rw [implies]
  cases hgranted : granted.isWildcard <;> cases hwanted : wanted.isWildcard
  case false.false =>
    simp only [covers_plain_iff hgranted, covers_plain_iff hwanted, forall_eq, beq_iff_eq]
    exact eq_comm
  case false.true =>
    -- A wildcard covers two names at least.
    refine iff_of_false nofun fun hincluded => ?_
    have hletters : 'a' ≠ '*' ∧ 'b' ≠ '*' := by decide
    have hfirst := hincluded _ (covers_extended hwanted hletters.1)
    have hsecond := hincluded _ (covers_extended hwanted hletters.2)
    rw [covers_plain_iff hgranted] at hfirst hsecond
    have hsame := congrArg String.toList (hfirst.trans hsecond.symm)
    simp at hsame
  case true.false =>
    have plain := isPlain_iff.2 hwanted
    simp only [covers_plain_iff hwanted, forall_eq, covers_wildcard_iff hgranted, plain, true_and,
      Bool.and_eq_true, decide_eq_true_eq, List.isPrefixOf_iff_prefix]
    constructor
    · rintro ⟨hlength, tail, htail⟩
      refine ⟨tail, htail.symm, ?_⟩
      rintro rfl
      rw [← htail, List.append_nil] at hlength
      exact Nat.lt_irrefl _ hlength
    · rintro ⟨tail, htail, hne⟩
      refine ⟨?_, tail, htail.symm⟩
      have hpos := List.length_pos_iff.2 hne
      rw [htail, List.length_append]
      omega
  case true.true =>
    rw [List.isPrefixOf_iff_prefix]
    exact stem_prefix_iff hgranted hwanted

end Permission

theorem PermissionSet.check_eq_ok_iff {policy : PermissionSet} {wanted : Permission} :
    policy.check wanted = .ok () ↔ policy.implies wanted = true := by
  rw [check]
  split <;> simp_all

/-- Implication is inclusion of what is covered, and a policy accepts what one of its permissions
covers, in whatever order they were granted. -/
theorem Permission.implies_eq_inclusion :
    (∀ granted wanted : Permission, granted.implies wanted = true ↔
      ∀ name, wanted.Covers name → granted.Covers name) ∧
    (∀ permission : Permission, permission.implies permission = true) ∧
    (∀ first second third : Permission, first.implies second = true →
      second.implies third = true → first.implies third = true) ∧
    ∀ (policy : PermissionSet) (wanted : Permission),
      (policy.check wanted = .ok () ↔
        ∃ granted ∈ policy.granted, ∀ name, wanted.Covers name → granted.Covers name) ∧
      ∀ other : PermissionSet, other.granted.Perm policy.granted →
        other.check wanted = policy.check wanted := by
  refine ⟨fun _ _ => implies_iff_covers, fun _ => ?_, fun first second third h h' => ?_,
    fun policy wanted => ⟨?_, fun other hperm => ?_⟩⟩
  · exact implies_iff_covers.2 fun _ hname => hname
  · rw [implies_iff_covers] at h h' ⊢
    exact fun name hname => h name (h' name hname)
  · rw [PermissionSet.check_eq_ok_iff, PermissionSet.implies_iff]
    simp only [implies_iff_covers]
  · have hsame : other.implies wanted = policy.implies wanted := by
      rw [Bool.eq_iff_iff, PermissionSet.implies_iff, PermissionSet.implies_iff]
      simp only [hperm.mem_iff]
    rw [PermissionSet.check, PermissionSet.check, hsame]

/-- Segments may be empty, but the last one after the path must not be the only one. -/
example :
    Permission.implies ⟨"a.*", none⟩ ⟨"a..", none⟩ = true ∧
      Permission.implies ⟨"a.*", none⟩ ⟨"a.", none⟩ = false := by decide

end ObjectNavigation

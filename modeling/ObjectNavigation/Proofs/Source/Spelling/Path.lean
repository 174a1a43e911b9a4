import ObjectNavigation.Proofs.Source.Naming

/-!
Reading back paths without arguments. A name is read as a part of a path also where it is one of
the reserved words that paths are made of; only `try` is none unless the path goes on after it.
-/

namespace ObjectNavigation.Source
open TokenParser

variable {tokens rest : List Token} {structs : Bool} {g : Grammar}

/-! ### What may follow -/

/-- What does not go on from the end of a path. -/
structure EndsPath (rest : List Token) : Prop where
  colons : Next.mark "::" rest = false
  bang : Next.mark "!" rest = false
  sharp : Next.mark "#" rest = false
  brace : Next.group .brace rest = false

/-- What does not go on from an access or a call, unless by a point. -/
structure EndsAccess (rest : List Token) : Prop extends EndsPath rest where
  paren : Next.group .paren rest = false
  bracket : Next.group .bracket rest = false
  question : Next.mark "?" rest = false

/-- What does not go on from an operand. -/
structure EndsOperand (rest : List Token) : Prop extends EndsAccess rest where
  point : Next.mark "." rest = false

/-- What follows an expression in brackets. -/
inductive EndsItem : List Token → Prop
  | nil : EndsItem []
  | comma (offset : Nat) (rest : List Token) : EndsItem (.mark offset ',' false :: rest)

theorem EndsItem.operand (h : EndsItem rest) : EndsOperand rest := by
  cases h <;> exact ⟨⟨⟨rfl, rfl, rfl, rfl⟩, rfl, rfl, rfl⟩, rfl⟩

theorem endsAccess_point (offset : Nat) : EndsAccess (.mark offset '.' false :: rest) :=
  ⟨⟨rfl, rfl, rfl, rfl⟩, rfl, rfl, rfl⟩

/-! ### Names and paths -/

theorem IsSegment.ne {name word : String} (h : IsSegment name) (hreserved : word ∈ reservedWords)
    (hword : word ∉ segmentWords) : (name == word) = false := by
  rw [beq_eq_false_iff_ne]
  rintro rfl
  exact hword (h.2 hreserved)

/-- The tokens of a path without arguments. -/
inductive SpellsPath : List String → List Token → Prop
  | one {name : String} (offset : Nat) (h : IsSegment name) : SpellsPath [name] [.name offset name]
  | more {name : String} {names : List String} {tokens : List Token} (offset first second : Nat)
    (h : IsSegment name) (hnames : SpellsPath names tokens) :
    SpellsPath (name :: names)
      (.name offset name :: .mark first ':' true :: .mark second ':' false :: tokens)

theorem SpellsPath.head {names : List String} (h : SpellsPath names tokens)
    (hstart : names ≠ ["try"]) (hrest : EndsPath rest) :
    ∃ offset name after, tokens ++ rest = .name offset name :: after ∧ IsSegment name ∧
      Next.mark "#" after = false ∧ Next.group .brace after = false ∧
      (name = "try" → Next.mark "::" after = true) := by
  cases h with
  | one offset hname =>
    exact ⟨offset, _, rest, rfl, hname, hrest.sharp, hrest.brace,
      fun heq => absurd (heq ▸ rfl) hstart⟩
  | more offset first second hname hnames =>
    exact ⟨offset, _, _, rfl, hname, rfl, rfl, fun _ => rfl⟩

namespace Grammar

theorem reads_name {name : String} (offset : Nat) (h : name ∉ reservedWords) :
    Reads TokenParser.name (.name offset name :: rest) rest (· = name) := by
  refine Reads.ahead (Reads.require ?_ ?_)
  · simpa [Next.name] using h
  · refine Reads.bind (reads_token _ _) fun token htoken => ?_
    subst htoken
    exact Reads.pure rfl

theorem reads_anyName (name : String) (offset : Nat) :
    Reads anyName (.name offset name :: rest) rest (· = name) := by
  refine Reads.bind (reads_token _ _) fun token htoken => ?_
  subst htoken
  exact Reads.pure rfl

theorem reads_segment {name : String} (offset : Nat) (h : IsSegment name)
    (hrest : argumentsAhead true rest = false) (path : Path) :
    Reads (segment g true path) (.name offset name :: rest) rest (· = path.push name .absent) := by
  have hlast : ∀ text : String, text = name → Reads (do
      if argumentsAhead true (← ahead) then
        let start ← here
        let given ← genericArguments g
        return path.push text (if given then .given else .empty start)
      else return path.push text .absent) rest rest (· = path.push name .absent) := by
    rintro text rfl
    exact Reads.ahead (Reads.otherwise hrest (Reads.pure rfl))
  by_cases hself : name = "Self"
  · subst hself
    refine Reads.ahead (Reads.otherwise rfl (Reads.chosen rfl ?_))
    exact Reads.bind (reads_anyName _ _) hlast
  have hnotSelf : (name == "Self") = false := beq_eq_false_iff_ne.2 hself
  by_cases hreserved : name ∈ reservedWords
  · refine Reads.ahead (Reads.chosen ?_ ?_)
    · have hword := h.2 hreserved
      simp only [segmentWords, List.mem_cons, List.not_mem_nil, or_false] at hword
      rcases hword with rfl | rfl | rfl | rfl | rfl <;> first | rfl | exact absurd rfl hself
    · exact Reads.bind (reads_anyName _ _) fun text htext => Reads.pure (htext ▸ rfl)
  · refine Reads.ahead (Reads.otherwise ?_ (Reads.otherwise hnotSelf ?_))
    · have hne : ∀ word ∈ reservedWords, (name == word) = false := fun word hword =>
        beq_eq_false_iff_ne.2 fun heq => hreserved (heq ▸ hword)
      have hall : ∀ word ∈ segmentWords, Next.word word (.name offset name :: rest) = false :=
        fun word hword => hne word (by revert word; decide)
      simp [pathWord, hall "super" (by decide), hall "self" (by decide), hall "Self" (by decide),
        hall "crate" (by decide), hall "try" (by decide)]
    · exact Reads.bind (reads_name offset hreserved) hlast

theorem reads_furtherSegments {names : List String} (h : SpellsPath names tokens)
    (hrest : Next.mark "::" rest = false) (path : Path) (first second : Nat) :
    Reads (furtherSegments g true path)
      (.mark first ':' true :: .mark second ':' false :: (tokens ++ rest)) rest
      (· = names.foldl (fun path name => path.push name .absent) path) := by
  -- One round reads the colons and one more segment.
  have hstep : ∀ {name : String} {offset : Nat} {after : List Token}, IsSegment name →
      argumentsAhead true after = false → ∀ first second path, Reads (do
        if Next.mark "::" (← ahead) && !Next.group .paren (← third) then
          discard <| TokenParser.mark "::"
          return Sum.inl (← segment g true path)
        else return .inr path)
        (.mark first ':' true :: .mark second ':' false :: .name offset name :: after) after
        fun result => ∃ s, result = .inl s ∧ s = path.push name .absent := by
    intro name offset after hname hafter first second path
    refine Reads.ahead (Reads.third (Reads.chosen rfl ?_))
    refine Reads.bind (Reads.discard (reads_mark rfl)) fun _ _ => ?_
    exact Reads.bind (reads_segment offset hname hafter path) fun path hpath =>
      Reads.pure ⟨path, rfl, hpath⟩
  induction h generalizing path first second with
  | one offset hname =>
    rw [List.singleton_append]
    refine Reads.again ?_ (hstep hname ?_ first second path) ?_
    · simp only [List.length_cons]
      omega
    · simp [argumentsAhead, hrest]
    · rintro _ rfl
      refine Reads.last (Reads.ahead (Reads.third (Reads.otherwise ?_ (Reads.pure ⟨_, rfl, rfl⟩))))
      rw [hrest, Bool.false_and]
  | more offset first' second' hname hnames ih =>
    refine Reads.again (by simp) (hstep hname ?_ first second path) ?_
    · cases hnames <;> rfl
    · rintro _ rfl
      exact ih _ first' second'

theorem reads_mark?_absent {text : String} (h : Next.mark text tokens = false) :
    Reads (TokenParser.mark? text) tokens tokens (· = false) :=
  Reads.ahead (Reads.otherwise h (Reads.pure rfl))

theorem foldl_push (names : List String) (path : Path) :
    let longer := names.foldl (fun path name => path.push name .absent) path
    longer.segments = path.segments ++ names ∧ longer.qualified = path.qualified ∧
      longer.leading = path.leading ∧ longer.arguments = path.arguments := by
  induction names generalizing path with
  | nil => simp
  | cons name names ih => simpa [Path.push] using ih (path.push name .absent)

theorem reads_path {names : List String} (h : SpellsPath names tokens) (hrest : EndsPath rest) :
    Reads (path g true) (tokens ++ rest) rest
      (· = names.foldl (fun path name => path.push name .absent) { }) := by
  cases h with
  | one offset hname =>
    rw [List.singleton_append]
    refine Reads.bind (reads_mark?_absent rfl) fun leading hleading => ?_
    subst hleading
    refine Reads.bind (reads_segment offset hname ?_ { }) fun path hpath => ?_
    · change (false || Next.mark "::" rest && _) = false
      rw [hrest.colons]
      rfl
    · subst hpath
      refine Reads.last (Reads.ahead (Reads.third (Reads.otherwise ?_ (Reads.pure ⟨_, rfl, rfl⟩))))
      rw [hrest.colons, Bool.false_and]
  | more offset first second hname hnames =>
    refine Reads.bind (reads_mark?_absent rfl) fun leading hleading => ?_
    subst hleading
    refine Reads.bind (reads_segment offset hname ?_ { }) fun path hpath => ?_
    · cases hnames <;> rfl
    · subst hpath
      exact reads_furtherSegments hnames hrest.colons _ first second

theorem reads_pathAtom {names : List String} (h : SpellsPath names tokens) (hrest : EndsPath rest) :
    Reads (pathAtom g structs) (tokens ++ rest) rest
      (fun e => ∃ copy, e = .path names (names.length == 1) copy) := by
  have hpath : Reads (qualifiedPath g true) (tokens ++ rest) rest fun path =>
      path.segments = names ∧ path.simple = (names.length == 1) ∧ path.qualified = false ∧
        path.arguments = false := by
    refine Reads.bind (reads_mark?_absent (by cases h <;> rfl)) fun qualified hqualified => ?_
    subst hqualified
    refine (reads_path h hrest).mono ?_
    rintro _ rfl
    obtain ⟨hsegments, hqualified, hleading, harguments⟩ := foldl_push names { }
    refine ⟨hsegments, ?_, hqualified, harguments⟩
    rw [Path.simple, hqualified, hleading, harguments, hsegments]
    rfl
  refine Reads.bind hpath fun path ⟨hsegments, hsimple, hqualified, harguments⟩ => ?_
  refine Reads.ahead (Reads.otherwise ?_ (Reads.ahead (Reads.otherwise ?_ ?_)))
  · rw [bangAhead, hrest.bang, Bool.false_and, Bool.and_false, Bool.false_and]
  · rw [hrest.brace, Bool.and_false]
  · exact Reads.pure ⟨[], by rw [hsegments, hsimple]⟩

theorem reads_atomStep_path {names : List String} (h : SpellsPath names tokens)
    (hstart : names ≠ ["try"]) (hrest : EndsPath rest) :
    Reads (atomStep g structs) (tokens ++ rest) rest
      (fun e => ∃ copy, e = .path names (names.length == 1) copy) := by
  have hpath : Reads (pathAtom g structs) (tokens ++ rest) rest _ := reads_pathAtom h hrest
  obtain ⟨offset, name, after, heq, hname, hsharp, hbrace, htry⟩ := h.head hstart hrest
  rw [heq] at hpath ⊢
  have hword : ∀ word ∈ reservedWords, word ∉ segmentWords →
      Next.word word (.name offset name :: after) = false := fun word => hname.ne
  have hliteral : Next.literal (.name offset name :: after) = false := by
    change (name == "true" || name == "false") = false
    rw [hname.ne (by decide) (by decide), hname.ne (by decide) (by decide)]
    rfl
  refine Reads.ahead (Reads.second (Reads.otherwise hliteral (Reads.third (Reads.otherwise ?_ ?_))))
  · rw [hword "async" (by decide) (by decide), Bool.false_and]
  have hclosure : Reads closureAhead (.name offset name :: after) (.name offset name :: after)
      (· = false) := by
    refine Reads.ahead (Reads.second (Reads.pure ?_))
    rw [hword "move" (by decide) (by decide), hword "for" (by decide) (by decide),
      hword "const" (by decide) (by decide), hword "static" (by decide) (by decide),
      hword "async" (by decide) (by decide)]
    rfl
  have hahead : Reads pathAhead (.name offset name :: after) (.name offset name :: after)
      (· = true) := by
    refine Reads.ahead (Reads.second (Reads.pure ?_))
    by_cases hreserved : name ∈ reservedWords
    · have hsegment := hname.2 hreserved
      simp only [segmentWords, List.mem_cons, List.not_mem_nil, or_false] at hsegment
      rcases hsegment with rfl | rfl | rfl | rfl | rfl
      · rfl
      · rfl
      · rfl
      · rfl
      · simp [Next.word, skipToken, htry rfl]
    · have hfree : Next.name (.name offset name :: after) = true := by
        simpa [Next.name] using hreserved
      simp only [hfree, Bool.true_or]
  refine Reads.otherwise ?_ (Reads.bind hclosure fun _ hclosure => ?_)
  · exact (congrArg (_ && ·) hbrace).trans (Bool.and_false _)
  subst hclosure
  refine Reads.otherwise rfl (Reads.otherwise ?_ (Reads.bind hahead fun _ hahead => ?_))
  · exact (congrArg (_ && ·) hsharp).trans (Bool.and_false _)
  subst hahead
  exact Reads.chosen rfl hpath

end Grammar

end ObjectNavigation.Source

import SearchBox.Proofs.Pieces
import SearchBox.Proofs.Stretches

/-!
# Edits that change no query

Two edits of a search text change one of its tokens and yet not what is searched for, since the
token keeps its piece:

* `requoted` — the text with an open quote closed, in place of a lone backslash at its end;
* a backslash before a character that has no meaning of its own there.

`ofToken_backslash` is what both come down to, and `query_requoted` and `query_push_backslash` say
what it means for a search.  Only in an operator does such a backslash matter: it makes a word of
it.
-/

namespace SearchBox

namespace Query

open Token

variable {p r : List Char} {c : Char} {t : Token}

/-! ## A backslash in a token -/

theorem isOperator_eq_false_of_mem (hc : c ∈ t) (hne : ∀ op : Operator, c ∉ op.word.toList) :
    isOperator t = false := by
  rw [← Bool.not_eq_true]
  intro hop
  obtain ⟨op, hkind⟩ := isOperator_iff.1 hop
  rw [kind_eq_operator_iff.1 hkind] at hc
  exact hne op hc

theorem not_mem_word (hc : c = '\\' ∨ c = '"') (op : Operator) : c ∉ op.word.toList := by
  rcases hc with rfl | rfl
  · cases op <;> decide
  · cases op <;> decide

theorem isOperator_backslash (p r : List Char) : isOperator (p ++ '\\' :: r) = false :=
  isOperator_eq_false_of_mem (c := '\\') (by simp) (not_mem_word (Or.inl rfl))

theorem kind_of_not_isOperator (h : isOperator t = false) :
    kind t = if t.head? = some '"' then .phrase else .word := by
  unfold isOperator at h
  unfold kind at h ⊢
  split
  · cases h
  · cases h
  · simp
  · rename_i hphrase
    rw [if_neg]
    intro hhead
    obtain ⟨u, rfl⟩ := List.head?_eq_some_iff.1 hhead
    exact hphrase u rfl

/-- The piece of a token depends on its kind, on what is left without its escapes, and on whether it
ends in one. -/
theorem ofToken_congr {t' : Token} (hkind : kind t' = kind t)
    (htext : Text.unescape t' = Text.unescape t)
    (hescaped : escapedAt t' t'.length = escapedAt t t.length) :
    Piece.ofToken t' = Piece.ofToken t := by
  refine Piece.ext hkind ?_
  rw [Piece.text_ofToken, Piece.text_ofToken, hkind, htext, hescaped]

/-- A token that is no operator keeps its piece when a backslash is put before a character of it
that is not escaped, unless that character is the quote that begins a phrase. -/
theorem ofToken_backslash (hp : escapedAt p p.length = false) (hc : c ≠ '\\')
    (hquote : p = [] → c ≠ '"') (hop : isOperator (p ++ c :: r) = false) :
    Piece.ofToken (p ++ '\\' :: c :: r) = Piece.ofToken (p ++ c :: r) := by
  refine ofToken_congr ?_ ?_ ?_
  · rw [kind_of_not_isOperator hop, kind_of_not_isOperator (isOperator_backslash p _)]
    cases p with
    | nil => simp [hquote rfl]
    | cons d p => rfl
  · rw [unescape_append hp, unescape_append hp, Text.unescape_backslash_cons,
      Text.unescape_cons_of_ne hc]
  · have hpair := escapedAt_append (escapedAt_pair c) r
    have hone := escapedAt_append (escapedAt_singleton hc) r
    rw [escapedAt_append hp, escapedAt_append hp]
    exact hpair.trans hone.symm

/-- An operator becomes a word. -/
theorem kind_backslash (hop : isOperator (p ++ c :: r) = true) :
    kind (p ++ '\\' :: c :: r) = .word := by
  rw [kind_of_not_isOperator (isOperator_backslash p _), if_neg]
  cases p with
  | nil => simp
  | cons d p =>
      -- There is no quote in an operator.
      intro hhead
      have hquote : '"' ∈ d :: p ++ c :: r := by
        rw [Option.some.inj hhead]
        simp
      rw [isOperator_eq_false_of_mem hquote (not_mem_word (Or.inr rfl))] at hop
      cases hop

end Query

/-! ## An open quote -/

namespace Token

open Query

variable {u text : List Char} {c : Char}

/-- Where a quote is open and no escape is pending, closing the quote or leaving it open is the
same, and a backslash in between only stands before the last character of the last token. -/
theorem exists_tokenize_open (hquo : quotedAt u u.length = true)
    (hesc : escapedAt u u.length = false) :
    ∃ older p, '"' ∈ p ∧ escapedAt p p.length = false
      ∧ tokenize u = older ++ [p ++ ['"']]
      ∧ tokenize (u ++ ['"']) = older ++ [p ++ ['"']]
      ∧ tokenize (u ++ ['\\']) = older ++ [p ++ ['\\', '"']] := by
  have hescaped := (flags_pending u).1.symm
  have hmem := (Lexer.sound_run_start u).pending_ne ((flags_run u).2.trans hquo)
  have hflags := flags_run u
  rw [hesc, hquo] at hflags
  unfold tokenize
  rw [Lexer.run_concat, Lexer.run_concat]
  cases hrun : Lexer.start.run u with
  | mk emitted pending quoted escaped =>
      rw [hrun] at hescaped hmem hflags
      obtain ⟨rfl, rfl⟩ := hflags
      have hne : pending ≠ [] := List.ne_nil_of_mem hmem
      refine ⟨emitted.reverse, pending.reverse, List.mem_reverse.2 hmem, hescaped, ?_, ?_, ?_⟩
      · rw [Lexer.tokens_of_pending hne]
        rfl
      · have hstep : (Lexer.mk emitted pending true false).step '"'
            = ⟨emitted, '"' :: pending, false, false⟩ := rfl
        rw [hstep, Lexer.tokens_of_pending (by simp)]
        simp
      · have hstep : (Lexer.mk emitted pending true false).step '\\'
            = ⟨emitted, '\\' :: pending, true, true⟩ := rfl
        rw [hstep, Lexer.tokens_of_pending (by simp)]
        simp

/-- A text without a lone backslash at its end. -/
def withoutLoneBackslash (text : List Char) : List Char :=
  if escapedAt text text.length then text.dropLast else text

/-- An open quote can be closed, in place of a lone backslash at the end, and all pieces stay. -/
theorem map_ofToken_requoted (hquo : quotedAt text text.length = true) :
    (tokenize text).map Piece.ofToken
      = (tokenize (withoutLoneBackslash text ++ ['"'])).map Piece.ofToken := by
  unfold withoutLoneBackslash
  cases hesc : escapedAt text text.length with
  | false =>
      obtain ⟨older, p, _, _, hopen, hclosed, _⟩ := exists_tokenize_open hquo hesc
      rw [if_neg Bool.false_ne_true, hopen, hclosed]
  | true =>
      obtain ⟨u, rfl, hu⟩ := exists_backslash hesc
      rw [quotedAt_end_concat] at hquo
      have hopen : quotedAt u u.length = true := by simpa using hquo
      obtain ⟨older, p, hmem, hp, _, hclosed, hlone⟩ := exists_tokenize_open hopen hu
      have hop : isOperator (p ++ ['"']) = false :=
        isOperator_eq_false_of_mem (c := '"') (by simp) (not_mem_word (Or.inr rfl))
      have hne : p ≠ [] := List.ne_nil_of_mem hmem
      have hpiece := ofToken_backslash hp (by decide) (fun hnil => absurd hnil hne) hop
      rw [if_pos rfl, List.dropLast_concat, hclosed, hlone, List.map_append, List.map_append,
        List.map_singleton, List.map_singleton, hpiece]

/-! ## A backslash in a text -/

/-- A backslash before a character that has no meaning of its own is added to the token that the
character is in, and to no other. -/
theorem exists_tokenize_backslash (hesc : escapedAt u u.length = false) (hback : c ≠ '\\')
    (hquote : c ≠ '"') (hsep : Text.isSeparator c = true → quotedAt u u.length = true)
    (v : List Char) :
    ∃ older p r later, escapedAt p p.length = false
      ∧ tokenize (u ++ c :: v) = older ++ (p ++ c :: r) :: later
      ∧ tokenize (u ++ '\\' :: c :: v) = older ++ (p ++ '\\' :: c :: r) :: later
      ∧ ∀ t, IsTokenAt (u ++ c :: v) u.length t ↔ t = p ++ c :: r := by
  have hescaped := (flags_pending u).1.symm
  have hflags := flags_run u
  have hmust : Text.isSeparator c = true → (Lexer.start.run u).quoted = true :=
    fun hblank => hflags.2.trans (hsep hblank)
  rw [hesc] at hflags
  obtain ⟨r, later, hrest⟩ :=
    Lexer.exists_ending (Lexer.start.run u).quoted (Lexer.start.run u).escaped v
  -- Both texts go on from states that differ in the token being read only.
  have hplain : tokenize (u ++ c :: v) = (Lexer.start.run u).emitted.reverse
      ++ ((c :: (Lexer.start.run u).pending).reverse ++ r) :: later := by
    rw [tokenize, Lexer.run_append, Lexer.run_cons,
      Lexer.step_of_ordinary hflags.1 hback hquote hmust, hrest _ _ (List.cons_ne_nil _ _)]
  have hmarked : tokenize (u ++ '\\' :: c :: v) = (Lexer.start.run u).emitted.reverse
      ++ ((c :: '\\' :: (Lexer.start.run u).pending).reverse ++ r) :: later := by
    rw [tokenize, Lexer.run_append, Lexer.run_cons, Lexer.run_cons,
      Lexer.step_backslash hflags.1, hrest _ _ (List.cons_ne_nil _ _)]
  have hstay : (Lexer.start.run u).breaksAt c = false := by
    rw [Lexer.breaksAt, hflags.1]
    cases hblank : Text.isSeparator c with
    | false => rfl
    | true => simp [hmust hblank]
  obtain ⟨t, after, htoken, hunique⟩ := exists_isTokenAt hstay v
  have hsame := List.append_cancel_left (htoken.symm.trans hplain)
  rw [(List.cons.inj hsame).1] at hunique
  refine ⟨(Lexer.start.run u).emitted.reverse, (Lexer.start.run u).pending.reverse, r, later,
    hescaped.trans hflags.1, ?_, ?_, ?_⟩
  · rw [hplain]
    simp
  · rw [hmarked]
    simp
  · simpa using hunique

end Token

namespace Settings

open Query Token

/-! ## Searches -/

/-- A text with an open quote closed at its end, in place of a lone backslash. -/
def requoted (text : String) : String :=
  String.ofList (withoutLoneBackslash text.toList ++ ['"'])

/-- Leaving a quote open means the same as closing it at the end of the text, with a lone backslash
there or without. -/
theorem query_requoted (text : String)
    (hquotes : quotesBefore text.toList text.toList.length % 2 = 1) :
    operatorsIn text = operatorsIn (requoted text)
      ∧ ∀ (s : Settings) (field : String), operatorsIn text ≤ s.maxOperators.toNat →
          s.query field text = s.query field (requoted text) := by
  have hquo : quotedAt text.toList text.toList.length = true := by simp [quotedAt, hquotes]
  have hpieces : pieces text = pieces (requoted text) := by
    unfold pieces requoted
    rw [String.toList_ofList]
    exact map_ofToken_requoted hquo
  exact ⟨operatorsIn_congr hpieces, fun s field hlimit => query_congr field hpieces hlimit⟩

/-- A quote that is open in a phrase and one that is open in a word, each with a lone backslash
behind it. -/
theorem query_requoted_lone_backslash :
    quotesBefore "x OR \"a b\\".toList "x OR \"a b\\".toList.length % 2 = 1
      ∧ operatorsIn "x OR \"a b\\" = operatorsIn "x OR \"a b\""
      ∧ Settings.query {} "f" "x OR \"a b\\" = Settings.query {} "f" "x OR \"a b\""
      ∧ Settings.query {} "f" "x OR y\"a b\\" = Settings.query {} "f" "x OR y\"a b\"" := by
  obtain ⟨hcount, hphrase⟩ := query_requoted "x OR \"a b\\" (by decide)
  obtain ⟨_, hword⟩ := query_requoted "x OR y\"a b\\" (by decide)
  exact ⟨by decide, hcount, hphrase {} "f" (by decide), hword {} "f" (by decide)⟩

/-- A backslash before a character that is no backslash, no quote, and no separator outside quotes,
where no escape is pending, is added to the one token that the character is in.  Unless that token
is an operator, the text has as many operators as before and within the limit the same query; an
operator becomes a word. -/
theorem query_push_backslash (u v : String) (c : Char)
    (hesc : escapedAt u.toList u.toList.length = false) (hback : c ≠ '\\') (hquote : c ≠ '"')
    (hsep : Text.isSeparator c = true → quotedAt u.toList u.toList.length = true) :
    ∃ older t t' later,
      tokenize (u.push c ++ v).toList = older ++ t :: later
        ∧ tokenize ((u.push '\\').push c ++ v).toList = older ++ t' :: later
        ∧ (∀ t₀, IsTokenAt (u.push c ++ v).toList u.toList.length t₀ ↔ t₀ = t)
        ∧ (isOperator t = false →
            operatorsIn ((u.push '\\').push c ++ v) = operatorsIn (u.push c ++ v)
              ∧ ∀ (s : Settings) (field : String),
                operatorsIn (u.push c ++ v) ≤ s.maxOperators.toNat →
                  s.query field ((u.push '\\').push c ++ v) = s.query field (u.push c ++ v))
        ∧ (isOperator t = true →
            operatorsIn (u.push c ++ v) = operatorsIn ((u.push '\\').push c ++ v) + 1
              ∧ kind t' = .word) := by
  obtain ⟨older, p, r, later, hp, hplain, hmarked, hunique⟩ :=
    exists_tokenize_backslash hesc hback hquote hsep v.toList
  have hplain' : (u.push c ++ v).toList = u.toList ++ c :: v.toList := by simp
  have hmarked' : ((u.push '\\').push c ++ v).toList = u.toList ++ '\\' :: c :: v.toList := by simp
  rw [← hplain'] at hplain hunique
  rw [← hmarked'] at hmarked
  refine ⟨older, p ++ c :: r, p ++ '\\' :: c :: r, later, hplain, hmarked, hunique, ?_, ?_⟩
  · intro hop
    have hpieces : pieces (u.push c ++ v) = pieces ((u.push '\\').push c ++ v) := by
      unfold pieces
      rw [hplain, hmarked, List.map_append, List.map_append, List.map_cons, List.map_cons,
        ofToken_backslash hp hback (fun _ => hquote) hop]
    exact ⟨(operatorsIn_congr hpieces).symm,
      fun s field hlimit => (query_congr field hpieces hlimit).symm⟩
  · intro hop
    refine ⟨?_, kind_backslash hop⟩
    unfold operatorsIn
    rw [hplain, hmarked, operatorCount_append_cons, operatorCount_append_cons, hop,
      isOperator_backslash]
    rfl

/-- A backslash before the last character of a phrase that goes on behind its quotes, and one inside
an operator. -/
theorem query_push_backslash_phrase_end :
    escapedAt "\"ab\"".toList "\"ab\"".toList.length = false
      ∧ Settings.query {} "f" "\"ab\"\\d" = Settings.query {} "f" "\"ab\"d"
      ∧ operatorsIn "AND" = operatorsIn "A\\ND" + 1 := by
  have hesc : escapedAt "\"ab\"".toList "\"ab\"".toList.length = false := by decide
  obtain ⟨older, t, _, later, hphrase, _, _, hsame, _⟩ :=
    query_push_backslash "\"ab\"" "" 'd' hesc (by decide) (by decide) (by decide)
  obtain ⟨older', t', _, later', hoperator, _, _, _, hword⟩ :=
    query_push_backslash "A" "D" 'N' (by decide) (by decide) (by decide) (by decide)
  have ht : t ∈ ["\"ab\"d".toList] := by
    have htokens : tokenize ("\"ab\"".push 'd' ++ "").toList = ["\"ab\"d".toList] := by decide
    rw [← htokens, hphrase]
    simp
  have ht' : t' ∈ ["AND".toList] := by
    have htokens : tokenize ("A".push 'N' ++ "D").toList = ["AND".toList] := by decide
    rw [← htokens, hoperator]
    simp
  refine ⟨hesc, (hsame ?_).2 {} "f" (by decide), (hword ?_).1⟩
  · rw [List.mem_singleton.1 ht]
    rfl
  · rw [List.mem_singleton.1 ht']
    rfl

end Settings
end SearchBox

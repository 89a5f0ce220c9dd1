import ComputedCss.Proofs.Value.Components
import ComputedCss.Proofs.Value.ReadBack

/-!
# Quoted addresses

An address may stand between quotes inside its call. The quotes are taken away, but what stands
between them is not decoded as it is in a string, and what comes after the closing quote is not
looked at.

* `readQuoted_of_quotedBody`: what stands between quotes is decoded to itself, or to fewer
  characters if it has a backslash.
* `quoted_address_read`: when a quoted address is read, and what it is.
-/

namespace ComputedCss

open Text Reading

variable {quote : Char} {body more rest : List Char}

/-! ## Between the quotes -/

theorem QuotedBody.drop_plain (h : QuotedBody quote body) {front : List Char}
    (hfront : ∀ c ∈ front, c ≠ quote ∧ c ≠ '\\') (htext : body ++ quote :: more = front ++ rest) :
    ∃ back, body = front ++ back ∧ QuotedBody quote back ∧ rest = back ++ quote :: more := by
  induction front generalizing body with
  | nil => exact ⟨body, rfl, h, htext.symm⟩
  | cons c front ih =>
    obtain ⟨hquote, hescape⟩ := hfront c List.mem_cons_self
    cases h with
    | nil => exact absurd (List.cons.inj htext).1.symm hquote
    | plain _ _ hbody =>
      obtain ⟨rfl, htail⟩ := List.cons.inj htext
      obtain ⟨back, rfl, hback, hrest⟩ :=
        ih hbody (fun d hd => hfront d (List.mem_cons_of_mem _ hd)) htail
      exact ⟨back, rfl, hback, hrest⟩
    | escaped => exact absurd (List.cons.inj htext).1.symm hescape

theorem exists_readEscape_cons (c : Char) (text : List Char) :
    ∃ d rest, readEscape (c :: text) = some (d, rest) := by
  rw [readEscape]
  cases hexValue? c with
  | none => exact ⟨_, _, rfl⟩
  | some digit => exact ⟨_, _, rfl⟩

/-- What stands between quotes is decoded. Without a backslash it stands for itself; with one it
stands for fewer characters. -/
theorem readQuoted_of_quotedBody (hquote : isQuote quote = true) (h : QuotedBody quote body)
    (more : List Char) :
    ∃ cs, readQuoted quote (body ++ quote :: more) = some (cs, more) ∧
      ((cs = body ∧ '\\' ∉ body) ∨ (cs.length < body.length ∧ '\\' ∈ body)) := by
  -- The induction is on the length, because an escape takes more than one character with it.
  induction hlength : body.length using Nat.strong_induction_on generalizing body with
  | _ length ih =>
    subst hlength
    cases h with
    | nil => exact ⟨[], readQuoted_close quote more, .inl ⟨rfl, by simp⟩⟩
    | @plain c body hc hescape hbody =>
      obtain ⟨cs, hread, hcases⟩ := ih body.length (by simp) hbody rfl
      refine ⟨c :: cs, ?_, ?_⟩
      · rw [List.cons_append, readQuoted_cons hc hescape, hread]
        rfl
      · rcases hcases with ⟨rfl, hplain⟩ | ⟨hshorter, hmem⟩
        · exact .inl ⟨rfl, by simpa using ⟨hescape.symm, hplain⟩⟩
        · exact .inr ⟨by simpa using hshorter, List.mem_cons_of_mem c hmem⟩
    | @escaped c body hbody =>
      obtain ⟨d, text, hescape⟩ := exists_readEscape_cons c (body ++ quote :: more)
      obtain ⟨_, front, htext, hfront⟩ := exists_of_readEscape hescape
      obtain ⟨rfl, htail⟩ := List.cons.inj htext
      obtain ⟨back, rfl, hback, rfl⟩ :=
        hbody.drop_plain (fun e he => plain_of_escape hquote (hfront e he)) htail
      have hlt : back.length < ('\\' :: c :: (front ++ back)).length := by
        simp only [List.length_cons, List.length_append]
        omega
      obtain ⟨cs, hread, hcases⟩ := ih back.length hlt hback rfl
      have hle : cs.length ≤ back.length := by
        rcases hcases with ⟨rfl, -⟩ | ⟨hshorter, -⟩
        · exact le_rfl
        · exact hshorter.le
      refine ⟨d :: cs, ?_, .inr ⟨?_, List.mem_cons_self⟩⟩
      · rw [List.cons_append, List.cons_append,
          readQuoted_escape (ne_backslash_of_isQuote hquote) hescape, hread]
        rfl
      · simp only [List.length_cons, List.length_append]
        omega

theorem decoded_eq_iff {cs : List Char}
    (h : (cs = body ∧ '\\' ∉ body) ∨ (cs.length < body.length ∧ '\\' ∈ body)) :
    cs = body ↔ '\\' ∉ body := by
  rcases h with ⟨rfl, hplain⟩ | ⟨hshorter, hmem⟩
  · exact ⟨fun _ => hplain, fun _ => rfl⟩
  · refine ⟨?_, fun hplain => absurd hmem hplain⟩
    rintro rfl
    exact absurd hshorter (lt_irrefl _)

theorem unquote_quoted (hquote : isQuote quote = true) (body : List Char) :
    unquote (quote :: (body ++ [quote])) = body := by
  simp [unquote, hquote]

theorem balanced_quoted_iff (hquote : isQuote quote = true) :
    Balanced (quote :: rest) ↔
      ∃ body more, rest = body ++ quote :: more ∧ QuotedBody quote body ∧ Balanced more := by
  constructor
  · intro h
    rw [Text.Balanced, pass_cons (by simp [Text.cuts]) (step_top_of_isQuote hquote)] at h
    exact exists_body_of_pass h rfl
  · rintro ⟨body, more, rfl, hbody, hmore⟩
    exact (pass_string hquote hbody 0 more).trans hmore

/-! ## Components -/

variable {ν : Type} [Scalar ν]

theorem result_readTrimmed_quoted (hquote : isQuote quote = true) {s : String} :
    result (readTrimmed (quote :: rest) : Reading ν (Primitive ν)) = .ok (.string s) ↔
      readString quote rest = .ok s := by
  rw [readTrimmed, if_pos hquote, result_map_eq_ok]
  constructor
  · rintro ⟨s', hread, hs⟩
    obtain rfl : s' = s := by simpa using hs
    exact result_ofText_eq_ok.mp hread
  · intro h
    exact ⟨s, result_ofText_eq_ok.mpr h, rfl⟩

theorem result_read_url (argument : String) {p : Primitive ν} :
    result (Primitive.read ("url(" ++ argument ++ ")")) = .ok p ↔
      Balanced (trim argument.toList) ∧
        p = .uri (String.ofList (unquote (trim argument.toList))) := by
  have htext : ("url(" ++ argument ++ ")").toList = callText ['u', 'r', 'l'] argument.toList := by
    simp [callText]
  have hname : IsName ['u', 'r', 'l'] := ⟨by decide, trimmed_of_all (by decide)⟩
  rw [Primitive.read, readPrimitive, trim_eq_self (htext ▸ trimmed_callText hname)]
  exact result_readTrimmed_uri

/-- **An address loses its quotes without being decoded.** An argument that is one string makes an
address of what stands between the quotes, and that is the string exactly if there is no backslash.
An argument that begins with a quote is accepted exactly if it is a string and a balanced text after
it, and it is one string only if that text is empty. -/
theorem quoted_address_read (argument : String) (hquote : isQuote quote = true)
    (hargument : trim argument.toList = quote :: rest) :
    (∀ s, result (Primitive.read argument) = .ok (.string s : Primitive ν) →
      ∃ body, rest = body ++ [quote] ∧ QuotedBody quote body ∧
        result (Primitive.read ("url(" ++ argument ++ ")")) =
          .ok (.uri (String.ofList body) : Primitive ν) ∧
        (String.ofList body = s ↔ '\\' ∉ body)) ∧
    (∀ p : Primitive ν, result (Primitive.read ("url(" ++ argument ++ ")")) = .ok p ↔
      (∃ body more, rest = body ++ quote :: more ∧ QuotedBody quote body ∧ Balanced more) ∧
        p = .uri (String.ofList (unquote (quote :: rest)))) ∧
    ∀ body more, rest = body ++ quote :: more → QuotedBody quote body →
      ((∃ s, result (Primitive.read argument) = .ok (.string s : Primitive ν)) ↔ more = []) := by
  have hread : (Primitive.read argument : Reading ν (Primitive ν)) = readTrimmed (quote :: rest) :=
    congrArg readTrimmed hargument
  have hurl : ∀ p : Primitive ν, result (Primitive.read ("url(" ++ argument ++ ")")) = .ok p ↔
      (∃ body more, rest = body ++ quote :: more ∧ QuotedBody quote body ∧ Balanced more) ∧
        p = .uri (String.ofList (unquote (quote :: rest))) := fun p => by
    rw [result_read_url, hargument, balanced_quoted_iff hquote]
  simp only [hread, result_readTrimmed_quoted hquote]
  refine ⟨fun s hs => ?_, hurl, ?_⟩
  · obtain ⟨body, rfl, hbody⟩ := exists_body_of_readString hquote hs
    obtain ⟨cs, hcs, hcases⟩ := readQuoted_of_quotedBody hquote hbody []
    obtain rfl : String.ofList cs = s := by simpa [readString, hcs] using hs
    refine ⟨body, rfl, hbody, (hurl _).mpr ⟨⟨body, [], rfl, hbody, rfl⟩, ?_⟩, ?_⟩
    · rw [unquote_quoted hquote]
    · rw [String.ofList_inj, eq_comm, decoded_eq_iff hcases]
  · rintro body more rfl hbody
    obtain ⟨cs, hcs, -⟩ := readQuoted_of_quotedBody hquote hbody more
    cases more with
    | nil => simp [readString, hcs]
    | cons c more => simp [readString, hcs]

/-- The letter A by its code is the letter in a string, and its code in an address. -/
theorem quoted_address_read_code :
    isQuote '\x22' = true ∧ trim "\"\\41\"".toList = '\x22' :: ['\\', '4', '1', '\x22'] ∧
    result (Primitive.read "\"\\41\"") = .ok (.string "A" : Primitive Float) ∧
    result (Primitive.read "url(\"\\41\")") = .ok (.uri "\\41" : Primitive Float) := by
  have hquote : isQuote '\x22' = true := by decide
  have htrim : trim "\"\\41\"".toList = '\x22' :: ['\\', '4', '1', '\x22'] := by decide
  have hstring : result (Primitive.read "\"\\41\"") = .ok (.string "A" : Primitive Float) := by
    rw [Primitive.read, readPrimitive, htrim, result_readTrimmed_quoted hquote]
    with_unfolding_all rfl
  obtain ⟨body, hbody, -, hurl, -⟩ :=
    (quoted_address_read "\"\\41\"" hquote htrim).1 "A" hstring
  obtain rfl : ['\\', '4', '1'] = body := List.append_cancel_right hbody
  exact ⟨hquote, htrim, hstring, hurl⟩

/-- An address is not the string between its quotes, and more than one string is taken for one. -/
theorem not_quoted_address_decoded :
    (result (Primitive.read "\"\\41\"") = .ok (.string "A" : Primitive Float) ∧
      result (Primitive.read "url(\"\\41\")") ≠ .ok (.uri "A" : Primitive Float)) ∧
    result (Primitive.read "url(\"a\" \"b\")") = .ok (.uri "a\" \"b" : Primitive Float) ∧
    ∀ s, result (Primitive.read "\"a\" \"b\"") ≠ .ok (.string s : Primitive Float) := by
  have hcode : result (Primitive.read "url(\"\\41\")") = .ok (.uri "\\41" : Primitive Float) := by
    with_unfolding_all rfl
  have htwo : result (Primitive.read "\"a\" \"b\"" : Reading Float (Primitive Float)) =
      .error (.unreadable "\"a\" \"b\"" .textAfterString) := by
    with_unfolding_all rfl
  refine ⟨⟨?_, ?_⟩, ?_, fun s => ?_⟩
  · with_unfolding_all rfl
  · rw [hcode]
    simp
  · with_unfolding_all rfl
  · rw [htwo]
    simp

end ComputedCss

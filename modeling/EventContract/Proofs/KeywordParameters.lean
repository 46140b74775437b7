import EventContract.Proofs.ParameterNames

/-! # Parameters and keywords

Reserved words are to keep the keywords of C++ away from the parameters of a function, and not all
keywords are among them. A parameter is a keyword exactly where a field is spelled as one of those
that are missing; neither marking nor numbering ever makes a keyword.
-/

namespace EventContract.Emission

variable {fields : List String} {field word : String}

/-- The keywords of C++17, and behind them the words that stand for operators. -/
def keywords : List String :=
  ["alignas", "alignof", "asm", "auto", "bool", "break", "case", "catch", "char", "char16_t",
    "char32_t", "class", "const", "constexpr", "const_cast", "continue", "decltype", "default",
    "delete", "do", "double", "dynamic_cast", "else", "enum", "explicit", "export", "extern",
    "false", "float", "for", "friend", "goto", "if", "inline", "int", "long", "mutable",
    "namespace", "new", "noexcept", "nullptr", "operator", "private", "protected", "public",
    "register", "reinterpret_cast", "return", "short", "signed", "sizeof", "static",
    "static_assert", "static_cast", "struct", "switch", "template", "this", "thread_local",
    "throw", "true", "try", "typedef", "typeid", "typename", "union", "unsigned", "using",
    "virtual", "void", "volatile", "wchar_t", "while",
    "and", "and_eq", "bitand", "bitor", "compl", "not", "not_eq", "or", "or_eq", "xor", "xor_eq"]

/-- The keywords that are not among the reserved words. -/
def overlookedKeywords : List String :=
  ["char16_t", "char32_t", "const_cast", "decltype", "dynamic_cast", "reinterpret_cast",
    "static_assert", "static_cast", "thread_local", "typeid", "wchar_t",
    "and_eq", "bitand", "bitor", "compl", "not_eq", "or_eq", "xor", "xor_eq"]

theorem mem_overlookedKeywords_iff :
    word ∈ overlookedKeywords ↔ word ∈ keywords ∧ word ∉ reservedWords := by
  have hfilter : overlookedKeywords = keywords.filter fun word => word ∉ reservedWords := by
    decide +kernel
  rw [hfilter, List.mem_filter, decide_eq_true_eq]

theorem endsInLetter_of_mem_keywords : ∀ word ∈ keywords, endsInLetter word = true := by
  decide +kernel

/-- A field has its name among the parameters, be it as its own or as that of a field before it. -/
theorem parameterName_mem (h : field ∈ fields) : parameterName field ∈ parameterNames fields := by
  obtain ⟨i, hi⟩ := List.getElem?_of_mem h
  by_cases hearlier : parameterName field ∈ (parameterNames fields).take i
  · exact List.mem_of_mem_take hearlier
  · exact List.mem_of_getElem? (getElem?_parameterNames_of_free hi hearlier)

theorem keyword_mem_parameterNames_iff (hkeyword : word ∈ keywords) :
    word ∈ parameterNames fields ↔
      word ∉ reservedWords ∧ ∃ field ∈ fields, spelling field = word := by
  constructor
  · intro h
    obtain ⟨field, hfield, n, rfl⟩ := exists_candidate_of_mem h
    obtain ⟨heq, hfree⟩ := eq_spelling_of_endsInLetter (endsInLetter_of_mem_keywords _ hkeyword)
    rw [heq]
    exact ⟨hfree, field, hfield, rfl⟩
  · rintro ⟨hfree, field, hfield, rfl⟩
    have hname : parameterName field = spelling field := by
      rw [parameterName_eq, if_neg hfree]
    exact hname ▸ parameterName_mem hfield

/-- No parameter is a keyword exactly if no field is spelled as one of the keywords that are not
among the reserved words. -/
theorem keyword_free_iff (fields : List String) :
    (∀ name ∈ parameterNames fields, name ∉ keywords) ↔
      ∀ field ∈ fields, spelling field ∉ overlookedKeywords := by
  constructor
  · intro h field hfield hoverlooked
    obtain ⟨hkeyword, hfree⟩ := mem_overlookedKeywords_iff.mp hoverlooked
    exact h _ ((keyword_mem_parameterNames_iff hkeyword).mpr ⟨hfree, field, hfield, rfl⟩) hkeyword
  · intro h name hname hkeyword
    obtain ⟨hfree, field, hfield, rfl⟩ := (keyword_mem_parameterNames_iff hkeyword).mp hname
    exact h field hfield (mem_overlookedKeywords_iff.mpr ⟨hkeyword, hfree⟩)

/-- Keywords that are parameters: one that a field has for a name, and one that it is spelled as. -/
theorem parameters_with_keywords :
    parameterNames ["xor", "static-cast", "not"] = ["xor", "static_cast", "not_"] ∧
      ¬ ∀ name ∈ parameterNames ["xor", "static-cast", "not"], name ∉ keywords := by
  have hnames : parameterNames ["xor", "static-cast", "not"] = ["xor", "static_cast", "not_"] := by
    decide +kernel
  refine ⟨hnames, ?_⟩
  rw [hnames]
  decide +kernel

end EventContract.Emission

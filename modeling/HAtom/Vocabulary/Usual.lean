import HAtom.Vocabulary

/-!
# The usual vocabulary

The keywords of feeds, entries and cards with their explanations, and the elements of pages.
-/

namespace HAtom.Vocabulary

/-- The keywords and their explanations. -/
def usualKeywords : List (String × String) :=
  [
    ("hfeed",
      "Container of hentry elements. Optional: when missing, the whole page is the feed."),
    ("hentry",
      "A single entry. Must contain one entry-title and an entry-content or entry-summary."),
    ("entry-title", "Title of the entry. Required, exactly once per hentry."),
    ("entry-content",
      "Content of the entry. An hentry needs entry-content, entry-summary or both."),
    ("entry-summary", "Summary of the entry."),
    ("updated",
      "Last update of the entry as an ISO 8601 date, usually in the title of an abbr element."),
    ("published",
      "Publication date of the entry as an ISO 8601 date. Optional, at most once."),
    ("author",
      "Author of the entry, expressed with an hCard (class vcard with an fn property)."),
    ("bookmark",
      "rel value of the permanent link to the entry. Requires an href, at most once."),
    ("tag", "rel value of a link to a tag of the entry. Requires an href."),
    ("entry-key",
      "Identifier of the entry, carried in the title attribute. Unique inside the hentry."),
    ("feed-key",
      "Identifier of the feed, carried in the title attribute. Unique inside the hfeed."),
    ("vcard", "Root class of an hCard."),
    ("fn", "Formatted name of an hCard. Required, exactly once.")]

/-- The elements of pages. -/
def usualElements : List String :=
  [
    "a", "abbr", "acronym", "address", "area", "b", "base", "bdo", "big", "blockquote", "body",
    "br", "button", "caption", "cite", "code", "col", "colgroup", "dd", "del", "dfn", "div", "dl",
    "dt", "em", "fieldset", "form", "h1", "h2", "h3", "h4", "h5", "h6", "head", "hr", "html", "i",
    "img", "input", "ins", "kbd", "label", "legend", "li", "link", "map", "meta", "noscript",
    "object", "ol", "optgroup", "option", "p", "param", "pre", "q", "samp", "script", "select",
    "small", "span", "strong", "style", "sub", "sup", "table", "tbody", "td", "textarea", "tfoot",
    "th", "thead", "title", "tr", "tt", "ul", "var"]

/-- The vocabulary that is used when there is no file. -/
def usual : Vocabulary :=
  ⟨usualKeywords.map (·.1), usualElements, ordered usualKeywords⟩

end HAtom.Vocabulary

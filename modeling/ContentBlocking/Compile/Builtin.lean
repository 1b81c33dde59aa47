import ContentBlocking.FilterText.Line

/-!
# Built-in rules

Rules that every collection has: blocking rules for well-known trackers, which
are written as filter lines and so leave out excluded domains like any list,
and exceptions for pages and URLs on which blocking breaks sign-in, payment or
challenges.
-/

namespace ContentBlocking.Builtin

/-- The filter lines of every regular collection. -/
def filters : List String :=
  ["||doubleclick.net/", "||googlesyndication.com/", "||googleadservices.com/",
   "||google-analytics.com/", "||googletagservices.com/", "||adservice.google.com/",
   "||amazon-adsystem.com/", "||adnxs.com/", "||criteo.com/", "||criteo.net/",
   "||taboola.com/", "||outbrain.com/", "||scorecardresearch.com/", "||quantserve.com/",
   "||moatads.com/", "||pubmatic.com/", "||rubiconproject.com/", "||openx.net/",
   "||adsrvr.org/", "||casalemedia.com/", "||facebook.net/*/fbevents.js",
   "||hotjar.com/$script", "||ads-twitter.com/", "||media.net/$script",
   "##.adsbygoogle, [id^=\"google_ads_\"], [id^=\"div-gpt-ad\"], [class*=\"ad-banner\"], " ++
     "[data-ad-slot], ins.adsbygoogle"]

/-- The filter lines of the collection that stands in when no other can be
    compiled. -/
def minimalFilters : List String :=
  ["||doubleclick.net/", "||googlesyndication.com/", "||googleadservices.com/",
   "||amazon-adsystem.com/", "||adnxs.com/"]

/-- The domains of pages that are exempt. -/
def exemptPages : List String :=
  ["accounts.google.com", "login.microsoftonline.com", "appleid.apple.com", "paypal.com",
   "github.com"]

/-- The patterns of URLs that are exempt. -/
def exemptUrls : List String :=
  ["^https?://([^/]+\\.)?google\\.com/recaptcha/",
   "^https?://([^/]+\\.)?gstatic\\.com/recaptcha/",
   "^https?://([^/]+\\.)?hcaptcha\\.com/",
   "^https?://js\\.stripe\\.com/",
   "^https?://challenges\\.cloudflare\\.com/"]

/-- The rules of some filter lines. -/
def rulesOf (filters excluded : List String) : List Rule :=
  filters.filterMap fun line => FilterText.ruleOfLine? excluded line.toList

/-- The blocking rules of every regular collection. -/
def rules (excluded : List String) : List Rule := rulesOf filters excluded

/-- The blocking rules of the collection that stands in. -/
def minimalRules (excluded : List String) : List Rule := rulesOf minimalFilters excluded

/-- The exceptions of every collection. -/
def exceptions : List Rule :=
  exemptPages.map Rule.exceptionOn ++ exemptUrls.map Rule.exceptionFor

theorem isException_of_mem_exceptions {r : Rule} (h : r ∈ exceptions) : r.isException = true := by
  simp only [exceptions, List.mem_append, List.mem_map] at h
  rcases h with ⟨_, _, rfl⟩ | ⟨_, _, rfl⟩ <;> rfl

end ContentBlocking.Builtin

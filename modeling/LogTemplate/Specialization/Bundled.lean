import LogTemplate.Specialization.File

/-!
# LogTemplate.Specialization.Bundled

The specializations that come with the library.

* `Bundled.common` — access logs in the common and the combined log format.
* `Bundled.foo` — a small one with nested fields and a rule for its hook.
* `Bundled.files` — both by name.
-/

namespace LogTemplate.Bundled

/-- Access logs: who asked for what and when, and the answer. -/
def common : SpecializationFile where
  name := text "common"
  description := some (text "Access logs in the Common and Combined Log Formats.")
  tokens :=
    .ofList [
      (text "%h", text "(?#host)\\S+(?#!host)"),
      (text "%a", text "(?#remote_ip)[\\d.:a-fA-F]+(?#!remote_ip)"),
      (text "%l", text "(?#rfc)\\S+(?#!rfc)"),
      (text "%u", text "(?#authuser)\\S+(?#!authuser)"),
      (text "%t",
        text "(?#date)\\[(?#ts)(?#day)\\d{2}(?#!day)/(?#month)\\w{3}(?#!month)/"
          ++ text "(?#year)\\d{4}(?#!year):(?#time)\\d{2}:\\d{2}:\\d{2}"
          ++ text "(?#!time) (?#tz)[-+]\\d{4}(?#!tz)(?#!ts)\\](?#!date)"),
      (text "%r",
        text "(?#request)(?#req_method)[A-Z]+(?#!req_method) (?#req_file)[^ \"]+(?#!req_file) "
          ++ text "(?#req_protocol)HTTP/[\\d.]+(?#!req_protocol)(?#!request)"),
      (text "%s", text "(?#status)\\d{3}(?#!status)"),
      (text "%>s", text "(?#status)\\d{3}(?#!status)"),
      (text "%b", text "(?#bytes)(?:-|\\d+)(?#!bytes)"),
      (text "%B", text "(?#bytes)\\d+(?#!bytes)"),
      (text "%D", text "(?#duration_us)\\d+(?#!duration_us)"),
      (text "%{Referer}i", text "(?#referer)[^\"]*(?#!referer)"),
      (text "%{User-Agent}i", text "(?#useragent)[^\"]*(?#!useragent)")]
  aliases :=
    some (.ofList [
      (text ":common", text "%h %l %u %t \"%r\" %>s %b"),
      (text ":combined",
        text "%h %l %u %t \"%r\" %>s %b \"%{Referer}i\" \"%{User-Agent}i\"")])
  defaults := some ⟨some (text ":common"), some [text ":all"]⟩
  preprocess := none
  postprocess := none

/-- Four tokens, one of them with fields inside a field; runs of blanks count as one blank. -/
def foo : SpecializationFile where
  name := text "foo"
  description :=
    some (text "Reference specialization: four tokens, one of them with nested fields.")
  tokens :=
    .ofList [
      (text "%a", text "(?#a)\\d+(?#!a)"),
      (text "%b", text "(?#b)th(?:is|at)(?#!b)"),
      (text "%c", text "(?#c)(?#cs)\\w+(?#!cs)/(?#cn)\\d+(?#!cn)(?#!c)"),
      (text "%d", text "(?#d)(?:foo|bar|baz)(?#!d)")]
  aliases :=
    some (.ofList [
      (text ":default", text "%a %b %c")])
  defaults := some ⟨some (text "%d %c %b"), some [text "c"]⟩
  preprocess := some [⟨text " +", text " ", none⟩]
  postprocess := none

/-- The bundled files by name. -/
def files : List (Text × SpecializationFile) :=
  [(text "common", common), (text "foo", foo)]

end LogTemplate.Bundled

/-!
# The starter configuration

What `init-config` writes: every setting with its default and a word on what it is for.
-/

namespace ApiManual

def starterConfig : String :=
  "# routedoc configuration\n\n" ++
  "title: API Reference\nversion: v1\ndescription: \"\"\nlogo: \"\"\ncolor: \"\"\n\n" ++
  "servers:\n  - url: http://localhost:8000\n    description: Local development server.\n\n" ++
  "# Languages rendered into x-code-samples, in order.\n" ++
  "language_tabs:\n  bash: Bash\n  javascript: Javascript\n  python: Python\n\n" ++
  "# Base URL used inside code samples.\ndocs_url: http://localhost:8000\n\n" ++
  "# Groups whose @responseResource schemas are emitted under components.schemas.\n" ++
  "schema_groups: []\n\n" ++
  "# Directory that receives openapi.json.\noutput: public/docs\n\n" ++
  "# Seed for placeholder parameter values; leave empty for random values.\nseed:\n\n" ++
  "routes:\n  - apply:\n" ++
  "      # Headers added to every documented request example.\n" ++
  "      headers:\n        Authorization: \"Bearer \x7btoken\x7d\"\n" ++
  "      # Live calls made to capture example responses when none is declared.\n" ++
  "      response_calls:\n        methods: []\n        base_url: http://localhost:8000\n" ++
  "        bindings: \x7b\x7d\n    routes: []\n" ++
  "    # - handler: app.api.users:UserController.show\n    #   methods: [GET]\n" ++
  "    #   uri: users/\x7bid\x7d\n"

end ApiManual

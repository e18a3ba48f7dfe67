/-!
# An example of settings

* `exampleSettings` — settings with comments, as they are shown to people.
-/

namespace Harvesting

def exampleSettings : String := "# OAI-PMH harvester configuration

[[sources]]
# Checkpoint key; defaults to a slug of url + set
name = \"arxiv-physics\"
url = \"http://export.arxiv.org/oai2\"
set = \"physics\"
metadata_prefix = \"oai_dc\"
# Initial window; omitted bounds are open
from = \"2020-01-01\"
until = \"2020-01-02\"
# Either a fixed delay between cycles...
poll_secs = 3600
# ...or a cron expression with seconds
# schedule = \"0 0 2 * * *\"
timeout_secs = 60
# proxy_host = \"proxy.local\"
# proxy_port = 3128
index = \"oai\"

[sink]
url = \"http://localhost:9200\"
max_bulk_actions = 1000
max_concurrent_bulk_requests = 4
bulk_timeout_secs = 60

[checkpoint]
backend = \"file\"
dir = \"./checkpoints\"

[logging]
level = \"info\"
output = \"console\"
format = \"text\"
"

end Harvesting
